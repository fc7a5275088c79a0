/-!
# Images that cannot be pulled

The words by which the cluster says that a container will never start because its image is not to
be had.
-/

namespace Acceptance.ImagePull

/-- Reasons for which a container waits, and phrases of messages about one. -/
def signs : List String := [
  "ErrImagePull", "ImagePullBackOff", "InvalidImageName", "image can't be pulled",
  "failed to pull image", "trying and failing to pull image"]

/-- Whether `part` occurs in the text. -/
def occursIn (part : List Char) : List Char → Bool
  | [] => part.isEmpty
  | c :: rest => part.isPrefixOf (c :: rest) || occursIn part rest

def isFailure (text : String) : Bool := signs.any fun sign => occursIn sign.toList text.toList

end Acceptance.ImagePull

/-!
# How the test suite is called

The same arguments and variables on this machine and in the cluster.
-/

namespace Acceptance.TestCommand

/-- Variables in which the suite finds the test user. -/
def usernameVariable : String := "VIP_TEST_USERNAME"

def passwordVariable : String := "VIP_TEST_PASSWORD"

/-- The path of the configuration and, if only one category of tests is wanted, its marker. -/
def arguments (configPath category : String) : List String :=
  ["--vip-config", configPath] ++ if category.isEmpty then [] else ["-m", category]

end Acceptance.TestCommand

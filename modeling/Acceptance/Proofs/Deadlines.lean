import Acceptance.Observe
import Acceptance.Proofs.Durations
import Acceptance.Proofs.Manifest
import Acceptance.Proofs.Run

/-!
# The time a job is given

A deadline is typed as a length of time, stands in the job as a signed number of seconds, and bounds
the wait for the verdict on a clock with signed seconds.

* `Instant.isSome_add?_ofSeconds`: the seconds of a sum that a clock can show;
* `TestJob.compile_accepts`: which descriptors a job is made of;
* `TestJob.signedSeconds_eq`: the seconds of a job;
* `TestJob.typed_deadline`: for which of the lengths that can be typed job and clock are right.
-/

namespace Acceptance

namespace Instant

/-- Whole seconds leave the nanoseconds as they are. -/
theorem isSome_add?_ofSeconds (t : Instant) (n : Nat) :
    (t.add? (Duration.ofSeconds n)).isSome ↔ t.seconds + n < signedLimit := by
  have part := t.part
  rw [isSome_add?_iff]
  simp only [total, Duration.ofSeconds]
  omega

end Instant

/-- What is typed is a positive number of whole seconds of 64 bits. -/
theorem Duration.parse_ok {s : String} {d : Nat} (h : parse s = .ok d) :
    ∃ n, 0 < n ∧ n < Duration.limit ∧ d = ofSeconds n := by
  obtain ⟨t, -, reads⟩ := (parse_eq_iff s (.ok d)).1 h
  cases reads with
  | time _ _ bounded positive => exact ⟨_, Nat.pos_of_ne_zero positive, bounded, rfl⟩

/-- The descriptor names the job and an image. -/
structure JobDescriptor.Valid (d : JobDescriptor) : Prop where
  name : d.name ≠ ""
  image : ∃ c ∈ d.image.toList, ¬ Text.isBlank c

namespace TestJob

open Duration (limit seconds ofSeconds)

theorem compile_accepts (d : JobDescriptor) (settings : JobSettings) :
    (∃ job, compile d settings = .ok job) ↔ d.Valid := by
  have blank : (Text.trimmed d.image).isEmpty ↔ ∀ c ∈ d.image.toList, Text.isBlank c := by
    rw [String.isEmpty_iff, Text.trimmed, ← Text.trim_eq_nil, ← String.toList_inj]
    simp
  simp only [compile]
  split
  · rename_i unnamed
    refine ⟨fun ⟨_, made⟩ => (nomatch made), fun valid => ?_⟩
    exact absurd (String.isEmpty_iff.1 unnamed) valid.name
  · rename_i named
    split
    · rename_i nothing
      refine ⟨fun ⟨_, made⟩ => (nomatch made), fun valid => ?_⟩
      obtain ⟨c, mem, solid⟩ := valid.image
      exact absurd (blank.1 nothing c mem) solid
    · rename_i something
      refine ⟨fun _ => ⟨fun same => named (String.isEmpty_iff.2 same), ?_⟩, fun _ => ⟨_, rfl⟩⟩
      simpa [blank] using something

theorem toJson_deadline (job : TestJob) : job.toJson.at? ["spec", "activeDeadlineSeconds"] =
    some (.number (.integer job.deadlineSeconds)) := by
  simp [Json.at?, toJson, Json.member?_ofMembers, entryAt?_cons]

/-- Seconds in the upper half of the 64 bits turn negative in the job. -/
theorem signedSeconds_eq {n : Nat} (bounded : n < limit) :
    signedSeconds n = if n < signedLimit then (n : Int) else n - limit := by
  unfold limit at *
  unfold signedSeconds signedLimit
  rw [Int.bmod_def]
  split <;> split <;> omega

theorem deadlineOf_ofSeconds {n : Nat} (positive : 0 < n) :
    deadlineOf (ofSeconds n) = signedSeconds n := by
  have whole : max (seconds (ofSeconds n)) 1 = n := by
    simp only [seconds, ofSeconds]
    omega
  rw [deadlineOf, whole]

/-- A job is made of every descriptor with a deadline that can be typed. Its seconds are those of
the deadline, and positive, exactly where they are less than half of what 64 bits hold; where they
are more they are counted from the upper end, so that they are negative. The clock can show when
the wait for the verdict is over exactly where that is no later than its last second. -/
theorem typed_deadline {text : String} {d : JobDescriptor} (valid : d.Valid)
    (typed : Duration.parse text = .ok d.deadline) (settings : JobSettings) :
    ∃ job, compile d settings = .ok job ∧
      job.toJson.at? ["spec", "activeDeadlineSeconds"] =
        some (.number (.integer job.deadlineSeconds)) ∧
      (job.deadlineSeconds = seconds d.deadline ↔ seconds d.deadline < signedLimit) ∧
      (1 ≤ job.deadlineSeconds ↔ seconds d.deadline < signedLimit) ∧
      (signedLimit ≤ seconds d.deadline →
        job.deadlineSeconds = (seconds d.deadline : Int) - limit) ∧
      ∀ (observer : ObserverSettings) (now : Instant), observer.jobTimeout = d.deadline →
        (((Observe.verdictWait observer).deadline? now).isSome ↔
          now.seconds + seconds d.deadline < signedLimit) := by
  obtain ⟨n, positive, bounded, same⟩ := Duration.parse_ok typed
  obtain ⟨job, made⟩ := (compile_accepts d settings).2 valid
  have whole : seconds d.deadline = n := by
    rw [same, seconds, ofSeconds]
    omega
  have held : job.deadlineSeconds = if n < signedLimit then (n : Int) else n - limit := by
    rw [compile_ok made, ← signedSeconds_eq bounded, ← deadlineOf_ofSeconds positive, ← same]
  rw [whole]
  refine ⟨job, made, job.toJson_deadline, ?_, ?_, fun upper => ?_, fun observer now timed => ?_⟩
  · rw [held]
    split <;> omega
  · rw [held]
    split <;> omega
  · rw [held, if_neg (Nat.not_lt.2 upper)]
  · rw [← Instant.isSome_add?_ofSeconds, ← same, ← timed]
    rfl

/-- A job for all tests. -/
def timed (deadline : Nat) : JobDescriptor where
  name := "vip-acme-job"
  configMap := "vip-acme-config"
  credentialSecret := "vip-test-credentials"
  namespaceName := "default"
  image := "vip"
  category := "all"
  deadline
  credentialsAvailable := true

theorem timed_valid (deadline : Nat) : (timed deadline).Valid where
  name := by simp [timed]
  image := ⟨'v', by simp [timed], by decide⟩

/-- Jobs with a quarter of an hour, on a clock that has just started. -/
theorem typed_deadline_quarter : ∃ job, compile (timed (ofSeconds 900)) {} = .ok job ∧
    job.deadlineSeconds = 900 ∧
    ((Observe.verdictWait {}).deadline? ⟨0, 0, by decide, by decide, by decide⟩).isSome := by
  have typed : Duration.parse "15m" = .ok (timed (ofSeconds 900)).deadline := rfl
  obtain ⟨job, made, -, exact, -, -, shown⟩ := typed_deadline (timed_valid _) typed {}
  exact ⟨job, made, exact.2 (by decide), (shown {} _ rfl).2 (by decide)⟩

/-- The longest time that can be typed is a second before zero in the job, and a clock that shows
zero cannot show when it is over. -/
theorem not_in_range :
    (¬ ∀ (text : String) (d : JobDescriptor) (settings : JobSettings) (job : TestJob), d.Valid →
      Duration.parse text = .ok d.deadline → compile d settings = .ok job →
        1 ≤ job.deadlineSeconds) ∧
    ¬ ∀ (text : String) (observer : ObserverSettings) (now : Instant),
      Duration.parse text = .ok observer.jobTimeout →
        ((Observe.verdictWait observer).deadline? now).isSome := by
  have typed : Duration.parse "18446744073709551615s" =
    .ok (ofSeconds 18446744073709551615) := rfl
  constructor
  · intro positive
    have valid := timed_valid (ofSeconds 18446744073709551615)
    obtain ⟨job, made⟩ := (compile_accepts _ {}).2 valid
    have least := positive _ _ {} job valid typed made
    rw [compile_ok made] at least
    revert least
    decide
  · intro shown
    have some := shown _ { jobTimeout := ofSeconds 18446744073709551615 }
      ⟨0, 0, by decide, by decide, by decide⟩ typed
    revert some
    decide

end TestJob

end Acceptance

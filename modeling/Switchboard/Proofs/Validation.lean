import Switchboard.Proofs.Protocols
import Switchboard.Proofs.Routing
import Switchboard.Validation

/-!
# The report on all methods

A server asks its methods one after the other, by the names that it shows. What it hears from one of
them is what that method finds about itself (`validate_variant`), because a name that is shown leads
back to its method, in any case, and no such name is empty, as only a name could be that is asked
for and refused beforehand. So the report takes the names apart: each of them is in one of three
lists, in the order in which it is shown (`validateAll_partitions`), and the verdict on the server
is settled by the lengths of two of these lists.
-/

namespace Switchboard

/-- What is written about a method that checks itself, with the milliseconds that takes. -/
def Handler.account (h : Handler) (d : Dispatch) (request : Request) : (Verdict × String) × Nat :=
  let verdict := (h.validate d request).1.1
  ((verdict, "\n# " ++ h.name ++ ": Validating... #\n" ++ (h.validate d request).1.2 ++
    h.name ++ ": " ++ verdict.label ++ "\n"), (h.validate d request).2)

namespace Registry

variable {cs : List Registration} {list name v : String} {d : Dispatch} {request : Request}

/-! ## One method -/

theorem validate_of_get? {r : Registry} {h : Handler} (hv : v ≠ "") (hget : r.get? v = some h) :
    r.validate d request v = h.account d request := by
  unfold validate
  rw [if_neg hv, hget]
  rfl

/-- A name that is shown, in any case, leads to what its method finds. -/
theorem validate_variant (d : Dispatch) (request : Request)
    (hname : name ∈ ((Builder.empty.after cs).build list).names)
    (hv : Text.lower v = Text.lower name) :
    ∃ h, ((Builder.empty.after cs).build list).get? v = some h ∧ h.name = name ∧
      ((Builder.empty.after cs).build list).validate d request v = h.account d request := by
  obtain ⟨h, hget, hspelling⟩ := (keyed_build cs list).get?_of_mem_names hname hv
  obtain ⟨c, hc, rfl⟩ := mem_names_iff.1 hname
  exact ⟨h, hget, hspelling, validate_of_get? (variant_of_checkName hc.checkName_eq hv).1 hget⟩

/-- In whatever spelling a method is asked for, it finds the same. -/
theorem validate_of_lower_eq (d : Dispatch) (request : Request)
    (hname : name ∈ ((Builder.empty.after cs).build list).names)
    (hv : Text.lower v = Text.lower name) :
    ((Builder.empty.after cs).build list).validate d request v =
      ((Builder.empty.after cs).build list).validate d request name := by
  obtain ⟨h, hget, -, hfound⟩ := validate_variant d request hname hv
  obtain ⟨h', hget', -, hfound'⟩ := validate_variant d request hname rfl
  have heq : ((Builder.empty.after cs).build list).get? v =
      ((Builder.empty.after cs).build list).get? name := by
    unfold get? entry?
    rw [hv]
  rw [heq, hget'] at hget
  cases hget
  exact hfound.trans hfound'.symm

/-! ## The lists of a report -/

theorem namesWith_map (names : List String) (find : String → (Verdict × String) × Nat)
    (verdict : Verdict) :
    namesWith (names.map fun n => (n, find n)) verdict =
      names.filter fun n => (find n).1.1 = verdict := by
  unfold namesWith
  rw [List.filter_map, List.map_map]
  exact List.map_id _

/-- Every name has one of the three verdicts. -/
theorem filters_perm (names : List String) (verdictOf : String → Verdict) :
    (names.filter (verdictOf · = .passed) ++ names.filter (verdictOf · = .failed) ++
      names.filter (verdictOf · = .notImplemented)).Perm names := by
  induction names with
  | nil => exact .refl []
  | cons n names ih =>
    simp only [List.filter_cons]
    cases verdictOf n with
    | passed => exact ih.cons n
    | failed =>
      refine .trans ?_ (ih.cons n)
      exact List.perm_middle.append_right _
    | notImplemented => exact List.perm_middle.trans (ih.cons n)

theorem pairwise_lt_names (cs : List Registration) (list : String) :
    ((Builder.empty.after cs).build list).names.Pairwise (· < ·) := by
  have hsorted := sorted_names ((Builder.empty.after cs).build list)
  refine (hsorted.and (keyed_build cs list).pairwise_names).imp fun {n m} hnm => ?_
  exact Std.lt_of_le_of_ne hnm.1 fun heq => hnm.2 (congrArg Text.lower heq)

/-! ## The verdict on the server -/

section

variable {total failed notImplemented : Nat}

theorem overall_eq_failed_iff : overall total failed notImplemented = .failed ↔
    0 < failed ∧ total ≤ 2 * failed := by
  unfold overall
  grind

theorem overall_eq_notImplemented_iff : overall total failed notImplemented = .notImplemented ↔
    ¬(0 < failed ∧ total ≤ 2 * failed) ∧ 0 < notImplemented ∧ total ≤ 2 * notImplemented := by
  unfold overall
  grind

theorem overall_eq_passed_iff : overall total failed notImplemented = .passed ↔
    ¬(0 < failed ∧ total ≤ 2 * failed) ∧ ¬(0 < notImplemented ∧ total ≤ 2 * notImplemented) := by
  unfold overall
  grind

end

/-! ## The whole report -/

/-- The report says of each name what is found under the name by itself, in whatever spelling. -/
theorem validateAll_eq (r : Registry) (d : Dispatch) (request : Request)
    {own : String → (Verdict × String) × Nat}
    (hown : ∀ name ∈ r.names, r.validate d request name = own name) :
    let report := (r.validateAll d request).1
    report.passed = r.names.filter (fun n => (own n).1.1 = .passed) ∧
      report.failed = r.names.filter (fun n => (own n).1.1 = .failed) ∧
      report.notImplemented = r.names.filter (fun n => (own n).1.1 = .notImplemented) ∧
      report.verdict = overall r.size report.failed.length report.notImplemented.length ∧
      ∃ sums, report.text = "Validating server...\n" ++
        String.join (r.names.map fun n => (own n).1.2) ++ sums ++
        "\nFINAL STATUS: " ++ report.verdict.label ++ "\n" := by
  intro report
  have hfound : (r.names.map fun n => (n, r.validate d request n)) =
      r.names.map fun n => (n, own n) :=
    List.map_congr_left fun n hn => congrArg (Prod.mk n) (hown n hn)
  have hlist : ∀ verdict, namesWith (r.names.map fun n => (n, r.validate d request n)) verdict =
      r.names.filter fun n => (own n).1.1 = verdict := by
    intro verdict
    rw [hfound, namesWith_map]
  refine ⟨hlist .passed, hlist .failed, hlist .notImplemented, rfl, ?_⟩
  have htext : (r.names.map fun n => (n, r.validate d request n)).map (·.2.1.2) =
      r.names.map fun n => (own n).1.2 := by
    rw [hfound, List.map_map]
    rfl
  rw [← htext]
  refine ⟨paragraph "FAILURE" "failed" r.size report.failed ++
    paragraph "Not Implemented" "not implemented" r.size report.notImplemented ++
    paragraph "PASSED" "passed" r.size report.passed, ?_⟩
  show (r.validateAll d request).1.text = _
  unfold validateAll
  simp only [String.append_assoc]
  rfl

/-- **The report takes the names apart.** Behind any registrations, and whatever its methods find
about themselves for a request, the report of a server has each of the names that it shows in
exactly one of three lists, by what its own method finds, and each list is in order. The server has
failed if some methods have and they are at least half of all; if not, it is not implemented if some
methods are not and they are at least half of all; and if not, it has passed, as one has without any
methods. All this is what the methods find one by one when they are asked for in any case, and the
text begins with what they have to say. -/
theorem validateAll_partitions (cs : List Registration) (list : String) (d : Dispatch)
    (request : Request) (spell : String → String)
    (hspell : ∀ name, Text.lower (spell name) = Text.lower name) :
    let r := (Builder.empty.after cs).build list
    let report := (r.validateAll d request).1
    let own := fun name => r.validate d request (spell name)
    (∀ name ∈ r.names, ∃ h, r.get? (spell name) = some h ∧ h.name = name ∧
        own name = h.account d request) ∧
      r.names.Nodup ∧
      (report.passed ++ report.failed ++ report.notImplemented).Perm r.names ∧
      report.passed = r.names.filter (fun n => (own n).1.1 = .passed) ∧
      report.failed = r.names.filter (fun n => (own n).1.1 = .failed) ∧
      report.notImplemented = r.names.filter (fun n => (own n).1.1 = .notImplemented) ∧
      (∀ names ∈ [report.passed, report.failed, report.notImplemented],
        names.Pairwise (· < ·)) ∧
      r.names.length = r.size ∧
      (report.verdict = .failed ↔
        report.failed ≠ [] ∧ r.size ≤ 2 * report.failed.length) ∧
      (report.verdict = .notImplemented ↔
        ¬(report.failed ≠ [] ∧ r.size ≤ 2 * report.failed.length) ∧
          report.notImplemented ≠ [] ∧ r.size ≤ 2 * report.notImplemented.length) ∧
      (report.verdict = .passed ↔
        ¬(report.failed ≠ [] ∧ r.size ≤ 2 * report.failed.length) ∧
          ¬(report.notImplemented ≠ [] ∧ r.size ≤ 2 * report.notImplemented.length)) ∧
      (r.names = [] → report.verdict = .passed) ∧
      ∃ sums, report.text = "Validating server...\n" ++
        String.join (r.names.map fun n => (own n).1.2) ++ sums ++
        "\nFINAL STATUS: " ++ report.verdict.label ++ "\n" := by
  intro r report own
  have hsame : ∀ name ∈ r.names, r.validate d request name = own name := fun name hname =>
    (validate_of_lower_eq d request hname (hspell name)).symm
  have hsorted : r.names.Pairwise (· < ·) := pairwise_lt_names cs list
  obtain ⟨hpassed, hfailed, hmissing, hverdict, htext⟩ := validateAll_eq r d request hsame
  have hpos : ∀ names : List String, 0 < names.length ↔ names ≠ [] := fun _ => List.length_pos_iff
  have hpassed_iff :
      overall r.size report.failed.length report.notImplemented.length = .passed ↔ _ :=
    overall_eq_passed_iff
  rw [← hverdict, hpos, hpos] at hpassed_iff
  refine ⟨fun name hname => validate_variant d request hname (hspell name),
    hsorted.imp Std.ne_of_lt, ?_, hpassed, hfailed, hmissing, ?_, length_names r, ?_, ?_,
    hpassed_iff, ?_, htext⟩
  · rw [hpassed, hfailed, hmissing]
    exact filters_perm r.names fun n => (own n).1.1
  · simp only [List.forall_mem_cons]
    rw [hpassed, hfailed, hmissing]
    exact ⟨hsorted.filter _, hsorted.filter _, hsorted.filter _, nofun⟩
  · rw [hverdict, overall_eq_failed_iff, hpos]
  · rw [hverdict, overall_eq_notImplemented_iff, hpos, hpos]
  · intro hnone
    rw [hpassed_iff, hfailed, hmissing, hnone]
    exact ⟨fun h => h.1 rfl, fun h => h.1 rfl⟩

/-- Two methods, of which one fails and the other cannot check itself. -/
def halves : List Registration :=
  [.method "s" (Sample.Gallery.subtract "Sub"), .method "s" (Sample.Gallery.broken "Broken")]

theorem names_halves : ((Builder.empty.after halves).build "s").names = ["Broken", "Sub"] := by
  have hvalues : ((Builder.empty.after halves).build "s").methods.values.map (·.handler.name) =
      ["Broken", "Sub"] := by decide +kernel
  unfold names
  rw [hvalues]
  exact List.mergeSort_of_pairwise (by decide)

/-- Both reach half of all, and the one that fails decides. -/
theorem validateAll_partitions_halves :
    let r := (Builder.empty.after halves).build "s"
    let report := (r.validateAll Handler.lonely (Request.plain "" [])).1
    (∀ name, Text.lower (Text.lower name) = Text.lower name) ∧ r.size = 2 ∧
      report.passed = [] ∧ report.failed = ["Broken"] ∧ report.notImplemented = ["Sub"] ∧
      report.verdict = .failed := by
  intro r report
  obtain ⟨-, -, -, hpassed, hfailed, hmissing, -, hlength, hverdict, -⟩ :=
    validateAll_partitions halves "s" Handler.lonely (Request.plain "" []) Text.lower
      Text.lower_lower
  have hsize : r.size = 2 := by
    rw [← hlength, names_halves]
    rfl
  rw [names_halves] at hpassed hfailed hmissing
  have hfailed : report.failed = ["Broken"] := hfailed.trans (by decide +kernel)
  refine ⟨Text.lower_lower, hsize, hpassed.trans (by decide +kernel), hfailed,
    hmissing.trans (by decide +kernel), hverdict.2 ?_⟩
  show report.failed ≠ [] ∧ r.size ≤ 2 * report.failed.length
  rw [hfailed, hsize]
  decide

end Registry

end Switchboard

import TransitionAudit.Proofs.Audit.Grouping
import TransitionAudit.Proofs.Json.Agreement
import TransitionAudit.Proofs.Trace.FullRow

/-!
# Reports read back

A report in JSON is read back member by member, with a member that is left out as a value that was not there. What
a violation expects and what was seen are texts or lists of texts, so that sorting the members of the document
leaves them as they are.
-/

namespace TransitionAudit

/-! ## Reading -/

namespace Json

def text? : Json → Option Text
  | .str s => some s
  | _ => none

def int? : Json → Option Int
  | .int i => some i
  | _ => none

def items? : Json → Option (List Json)
  | .arr xs => some xs
  | _ => none

def members? : Json → Option (List (Text × Json))
  | .obj ms => some ms
  | _ => none

/-- A member that may be left out. -/
def optional? {β : Type} (read : Json → Option β) (ms : List (Text × Json)) (name : Text) : Option (Option β) :=
  match find? ms name with
  | none => some none
  | some v => (read v).map some

end Json

def Violation.ofJson? (v : Json) : Option Violation := do
  let ms ← v.members?
  let message ← (Json.get ms "message").text?
  let moment ← Json.optional? (fun v => (Row.stamp "timestamp" v).toOption) ms "timestamp"
  return ⟨message, moment, Json.find? ms "expected", Json.find? ms "observed"⟩

namespace Finding

def passedOf? (verdict : Text) : Option Bool := [true, false].find? fun passed => Finding.verdict passed == verdict

def ofJson? (v : Json) : Option Finding := do
  let ms ← v.members?
  let transitionId ← (Json.get ms "transition_id").int?
  let transitionType ← (Json.get ms "transition_type").text?
  let ruleId ← (Json.get ms "rule_id").text?
  let passed ← passedOf? (← (Json.get ms "status").text?)
  let violations ← (← (Json.get ms "violations").items?).mapM Violation.ofJson?
  let detail ← Json.optional? Json.text? ms "detail"
  let errorCode ← Json.optional? Json.text? ms "error_code"
  return ⟨transitionId, transitionType, ruleId, passed, detail, errorCode, violations⟩

end Finding

namespace Report

/-- The findings of one group of a report. -/
def groupOf? (v : Json) : Option (List Finding) := do
  (← (Json.get (← v.members?) "results").items?).mapM Finding.ofJson?

/-- The findings of a report, group by group. -/
def findingsOf? (v : Json) : Option (List Finding) := do
  return (← (← (Json.get (← v.members?) "transitions").items?).mapM groupOf?).flatten

end Report

/-! ## Members that may be left out -/

namespace Json

theorem find?_cons {n name : Text} {v : Json} {ms : List (Text × Json)} :
    find? ((n, v) :: ms) name = if n = name then some v else find? ms name := by
  by_cases h : n = name <;> simp [find?, h]

theorem find?_optional {n name : Text} {x : Option Json} :
    find? (Violation.optional n x) name = if n = name then x else none := by
  cases x <;> simp [Violation.optional, find?]

theorem find?_append {ms ns : List (Text × Json)} {name : Text} :
    find? (ms ++ ns) name = (find? ms name).or (find? ns name) := by
  simp only [find?, List.find?_append]
  cases ms.find? (·.1 == name) <;> rfl

theorem map_fst_optional_sublist (n : Text) (x : Option Json) :
    ((Violation.optional n x).map (·.1)).Sublist [n] := by
  cases x <;> simp [Violation.optional]

theorem forall_mem_optional {P : Json → Prop} {n : Text} {x : Option Json} :
    (∀ m ∈ Violation.optional n x, P m.2) ↔ ∀ v ∈ x, P v := by
  cases x <;> simp [Violation.optional]

/-- A text or a list of texts. -/
inductive IsNames : Json → Prop
  | one (s : Text) : IsNames (.str s)
  | many (ss : List Text) : IsNames (.arr (ss.map .str))

theorem IsNames.sorted_eq {v : Json} (h : v.IsNames) : v.sorted = v := by
  cases h with
  | one s => rfl
  | many ss =>
      rw [sorted, sortedItems_eq_map, List.map_map]
      rfl

theorem IsNames.map_sorted {x : Option Json} (h : ∀ v ∈ x, v.IsNames) : x.map sorted = x := by
  cases x with
  | none => rfl
  | some v => exact congrArg some (h v rfl).sorted_eq

theorem IsNames.tidy {v : Json} (h : v.IsNames) (levels : Nat) : Tidy (levels + 1) v := by
  cases h with
  | one s => exact .str s
  | many ss => exact .arr (List.forall_mem_map.mpr fun s _ => .str s)

theorem optional?_eq_some {β : Type} {read : Json → Option β} (write : β → Json) {ms : List (Text × Json)}
    {name : Text} {x : Option β} (hfind : find? ms name = x.map write) (hread : ∀ y, read (write y) = some y) :
    optional? read ms name = some x := by
  rw [optional?, hfind]
  cases x with
  | none => rfl
  | some y => exact congrArg (Option.map some) (hread y)

/-- A list is read back item by item. -/
theorem mapM_map_eq_some {β γ : Type} {read : Json → Option γ} {write : β → Json} {held : β → γ} {ys : List β}
    (h : ∀ y ∈ ys, read (write y) = some (held y)) : (ys.map write).mapM read = some (ys.map held) := by
  induction ys with
  | nil => rfl
  | cons y ys ih =>
      obtain ⟨hy, hys⟩ := List.forall_mem_cons.mp h
      rw [List.map_cons, List.mapM_cons, hy, ih hys]
      rfl

theorem mapM_map_eq_some_self {β : Type} {read : Json → Option β} {write : β → Json} {ys : List β}
    (h : ∀ y ∈ ys, read (write y) = some y) : (ys.map write).mapM read = some ys := by
  rw [mapM_map_eq_some h, List.map_id']

theorem sorted_arr_map {β : Type} (write : β → Json) (ys : List β) :
    sorted (.arr (ys.map write)) = .arr (ys.map fun y => sorted (write y)) := by
  rw [sorted, sortedItems_eq_map, List.map_map]
  rfl

end Json

/-! ## Violations -/

namespace Violation

/-- Whether what a violation expects and what was seen are texts. -/
structure HasNames (v : Violation) : Prop where
  expected : ∀ e ∈ v.expected, e.IsNames
  observed : ∀ e ∈ v.observed, e.IsNames

def members (v : Violation) : List (Text × Json) :=
  ("message", .str v.message) ::
    (optional "timestamp" (v.moment.map Stamp.toJson) ++ optional "expected" v.expected ++
      optional "observed" v.observed)

def memberNames : List Text := ["message", "timestamp", "expected", "observed"]

theorem toJson_eq (v : Violation) : v.toJson = .obj v.members := rfl

theorem map_fst_members_sublist (v : Violation) : (v.members.map (·.1)).Sublist memberNames := by
  refine .cons_cons _ ?_
  rw [List.map_append, List.map_append]
  exact ((Json.map_fst_optional_sublist _ _).append (Json.map_fst_optional_sublist _ _)).append
    (Json.map_fst_optional_sublist _ _)

theorem nodup_members (v : Violation) : (v.members.map (·.1)).Nodup :=
  v.map_fst_members_sublist.nodup (by decide)

theorem forall_mem_members {v : Violation} {P : Json → Prop} (hmessage : P (.str v.message))
    (hmoment : ∀ s ∈ v.moment, P s.toJson) (hexpected : ∀ e ∈ v.expected, P e) (hobserved : ∀ e ∈ v.observed, P e) :
    ∀ m ∈ v.members, P m.2 := by
  refine List.forall_mem_cons.mpr ⟨hmessage, List.forall_mem_append.mpr ⟨List.forall_mem_append.mpr ⟨?_, ?_⟩, ?_⟩⟩
  · refine Json.forall_mem_optional.mpr fun e he => ?_
    obtain ⟨s, hs, rfl⟩ := Option.map_eq_some_iff.mp he
    exact hmoment s hs
  · exact Json.forall_mem_optional.mpr hexpected
  · exact Json.forall_mem_optional.mpr hobserved

theorem tidy_toJson {v : Violation} (h : v.HasNames) (levels : Nat) : Json.Tidy (levels + 2) v.toJson := by
  refine .of_sublist (by decide) (by simp [memberNames, Json.joined_ofString]) v.map_fst_members_sublist ?_
  exact forall_mem_members (.str _) (fun s _ => s.tidy_toJson _) (fun e he => (h.expected e he).tidy _)
    fun e he => (h.observed e he).tidy _

theorem find?_timestamp (v : Violation) : Json.find? v.members "timestamp" = v.moment.map Stamp.toJson := by
  simp [members, Json.find?_cons, Json.find?_append, Json.find?_optional, Text.ofString_inj]

theorem find?_expected (v : Violation) : Json.find? v.members "expected" = v.expected := by
  simp [members, Json.find?_cons, Json.find?_append, Json.find?_optional, Text.ofString_inj]

theorem find?_observed (v : Violation) : Json.find? v.members "observed" = v.observed := by
  simp [members, Json.find?_cons, Json.find?_append, Json.find?_optional, Text.ofString_inj]

theorem ofJson?_sorted {v : Violation} (h : v.HasNames) : ofJson? v.toJson.sorted = some v := by
  have hfind : ∀ name, Json.find? (Json.sortMembers (Json.sortedMembers v.members)) name =
      (Json.find? v.members name).map Json.sorted := Json.find?_sorted v.nodup_members
  have hmessage : Json.get (Json.sortMembers (Json.sortedMembers v.members)) "message" = .str v.message := by
    rw [Json.get, hfind]
    rfl
  have hmoment : Json.optional? (fun v => (Row.stamp "timestamp" v).toOption)
      (Json.sortMembers (Json.sortedMembers v.members)) "timestamp" = some v.moment := by
    refine Json.optional?_eq_some (fun s => s.toJson.sorted) ?_ fun s => ?_
    · rw [hfind, find?_timestamp, Option.map_map]
      rfl
    · rw [Row.stamp_eq_ok_iff.mpr (s.isStamp_toJson.sorted (s.tidy_toJson 0))]
      rfl
  have hexpected : Json.find? (Json.sortMembers (Json.sortedMembers v.members)) "expected" = v.expected := by
    rw [hfind, find?_expected, Json.IsNames.map_sorted h.expected]
  have hobserved : Json.find? (Json.sortMembers (Json.sortedMembers v.members)) "observed" = v.observed := by
    rw [hfind, find?_observed, Json.IsNames.map_sorted h.observed]
  rw [toJson_eq, Json.sorted, ofJson?]
  simp only [Json.members?, Option.bind_eq_bind, Option.bind_some, hmessage, Json.text?, hmoment, hexpected, hobserved]
  rfl

end Violation

/-! ## Findings -/

namespace Finding

theorem passedOf?_verdict (passed : Bool) : passedOf? (verdict passed) = some passed := by
  cases passed <;> decide

def members (f : Finding) : List (Text × Json) :=
  ([("transition_id", .int f.transitionId), ("transition_type", .str f.transitionType), ("rule_id", .str f.ruleId),
    ("status", .str f.status), ("violations", .arr (f.violations.map Violation.toJson))] : List (Text × Json)) ++
    (Violation.optional "detail" (f.detail.map .str) ++ Violation.optional "error_code" (f.errorCode.map .str))

def memberNames : List Text :=
  ["transition_id", "transition_type", "rule_id", "status", "violations", "detail", "error_code"]

theorem toJson_eq (f : Finding) : f.toJson = .obj f.members := rfl

theorem map_fst_members_sublist (f : Finding) : (f.members.map (·.1)).Sublist memberNames := by
  rw [members, List.map_append, List.map_append]
  exact (List.Sublist.refl (["transition_id", "transition_type", "rule_id", "status", "violations"] : List Text)).append
    ((Json.map_fst_optional_sublist _ _).append (Json.map_fst_optional_sublist _ _))

theorem nodup_members (f : Finding) : (f.members.map (·.1)).Nodup :=
  f.map_fst_members_sublist.nodup (by decide)

theorem forall_mem_members {f : Finding} {P : Json → Prop} (hid : P (.int f.transitionId))
    (htype : P (.str f.transitionType)) (hrule : P (.str f.ruleId)) (hstatus : P (.str f.status))
    (hviolations : P (.arr (f.violations.map Violation.toJson))) (hdetail : ∀ s ∈ f.detail, P (.str s))
    (hcode : ∀ s ∈ f.errorCode, P (.str s)) : ∀ m ∈ f.members, P m.2 := by
  have hoptional : ∀ (name : Text) (x : Option Text), (∀ s ∈ x, P (.str s)) →
      ∀ m ∈ Violation.optional name (x.map .str), P m.2 := by
    intro name x hx
    refine Json.forall_mem_optional.mpr fun e he => ?_
    obtain ⟨s, hs, rfl⟩ := Option.map_eq_some_iff.mp he
    exact hx s hs
  refine List.forall_mem_append.mpr ⟨?_, List.forall_mem_append.mpr ⟨hoptional _ _ hdetail, hoptional _ _ hcode⟩⟩
  simpa using ⟨hid, htype, hrule, hstatus, hviolations⟩

theorem tidy_toJson {f : Finding} (h : ∀ v ∈ f.violations, v.HasNames) (levels : Nat) :
    Json.Tidy (levels + 4) f.toJson := by
  refine .of_sublist (by decide) (by simp [memberNames, Json.joined_ofString]) f.map_fst_members_sublist ?_
  refine forall_mem_members (.int _) (.str _) (.str _) (.str _) ?_ (fun s _ => .str s) fun s _ => .str s
  exact .arr (List.forall_mem_map.mpr fun v hv => Violation.tidy_toJson (h v hv) levels)

theorem find?_detail (f : Finding) : Json.find? f.members "detail" = f.detail.map .str := by
  simp [members, Json.find?_cons, Json.find?_append, Json.find?_optional, Text.ofString_inj]

theorem find?_errorCode (f : Finding) : Json.find? f.members "error_code" = f.errorCode.map .str := by
  simp [members, Json.find?_cons, Json.find?_append, Json.find?_optional, Text.ofString_inj]

theorem ofJson?_sorted {f : Finding} (h : ∀ v ∈ f.violations, v.HasNames) : ofJson? f.toJson.sorted = some f := by
  have hget : ∀ name, Json.get (Json.sortMembers (Json.sortedMembers f.members)) name =
      (Json.get f.members name).sorted := Json.get_sorted f.nodup_members
  have hfind : ∀ name, Json.find? (Json.sortMembers (Json.sortedMembers f.members)) name =
      (Json.find? f.members name).map Json.sorted := Json.find?_sorted f.nodup_members
  have hid : Json.get f.members "transition_id" = .int f.transitionId := by rfl
  have htype : Json.get f.members "transition_type" = .str f.transitionType := by rfl
  have hrule : Json.get f.members "rule_id" = .str f.ruleId := by rfl
  have hstatus : Json.get f.members "status" = .str f.status := by rfl
  have hlist : Json.get f.members "violations" = .arr (f.violations.map Violation.toJson) := by rfl
  have hviolations : (f.violations.map fun v => v.toJson.sorted).mapM Violation.ofJson? = some f.violations :=
    Json.mapM_map_eq_some_self fun v hv => Violation.ofJson?_sorted (h v hv)
  have hdetail : Json.optional? Json.text? (Json.sortMembers (Json.sortedMembers f.members)) "detail" =
      some f.detail := by
    refine Json.optional?_eq_some .str ?_ fun s => rfl
    rw [hfind, find?_detail, Option.map_map]
    rfl
  have hcode : Json.optional? Json.text? (Json.sortMembers (Json.sortedMembers f.members)) "error_code" =
      some f.errorCode := by
    refine Json.optional?_eq_some .str ?_ fun s => rfl
    rw [hfind, find?_errorCode, Option.map_map]
    rfl
  rw [toJson_eq, Json.sorted, ofJson?]
  simp only [Json.members?, Option.bind_eq_bind, Option.bind_some, hget, hid, htype, hrule, hstatus, hlist,
    Json.sorted_arr_map, Json.sorted, Json.int?, Json.text?, Json.items?, status, passedOf?_verdict, hviolations,
    hdetail, hcode]
  rfl

end Finding

/-! ## Reports -/

theorem Summary.tidy_toJson (s : Summary) (levels : Nat) : Json.Tidy (levels + 1) s.toJson := by
  have hnames : (["transitions", "assertions", "passed", "failed", "errors", "status"] : List Text).Nodup := by decide
  exact .of_sublist hnames (by simp [Json.joined_ofString]) (.refl _) (by simp [Json.Tidy.int, Json.Tidy.str])

namespace Report

def groupMembers (g : Int × List Finding) : List (Text × Json) :=
  [("transition_id", .int g.1), ("transition_type", .str (typeOf g.2)), ("results", .arr (g.2.map Finding.toJson))]

/-- A group of findings as a document. -/
def groupJson (g : Int × List Finding) : Json := .obj (groupMembers g)

def members (r : Report) : List (Text × Json) :=
  [("report_schema_version", .str schemaVersion), ("summary", r.summary.toJson),
    ("transitions", .arr (r.byTransition.map groupJson))]

theorem toJson_eq (r : Report) : r.toJson = .obj r.members := rfl

theorem nodup_groupMembers (g : Int × List Finding) : ((groupMembers g).map (·.1)).Nodup :=
  (by decide : (["transition_id", "transition_type", "results"] : List Text).Nodup)

theorem nodup_members (r : Report) : (r.members.map (·.1)).Nodup :=
  (by decide : (["report_schema_version", "summary", "transitions"] : List Text).Nodup)

section
variable {g : Int × List Finding} (h : ∀ f ∈ g.2, ∀ v ∈ f.violations, v.HasNames)
include h

theorem tidy_groupJson (levels : Nat) : Json.Tidy (levels + 6) (groupJson g) := by
  have hresults : Json.Tidy (levels + 5) (.arr (g.2.map Finding.toJson)) :=
    .arr (List.forall_mem_map.mpr fun f hf => Finding.tidy_toJson (h f hf) levels)
  refine .obj (nodup_groupMembers g) ?_ ?_
  · simp [groupMembers, Json.joined_ofString]
  · simpa [groupMembers] using ⟨.int _, .str _, hresults⟩

theorem groupOf?_sorted : groupOf? (groupJson g).sorted = some g.2 := by
  have hget := Json.get_sorted (nodup_groupMembers g) "results"
  have hlist : Json.get (groupMembers g) "results" = .arr (g.2.map Finding.toJson) := by rfl
  have hresults : (g.2.map fun f => f.toJson.sorted).mapM Finding.ofJson? = some g.2 :=
    Json.mapM_map_eq_some_self fun f hf => Finding.ofJson?_sorted (h f hf)
  rw [groupJson, Json.sorted, groupOf?]
  simp only [Json.members?, Option.bind_eq_bind, Option.bind_some, hget, hlist, Json.sorted_arr_map, Json.items?,
    hresults]

end

section
variable {r : Report} (h : ∀ f ∈ r.findings, ∀ v ∈ f.violations, v.HasNames)
include h

theorem tidy_toJson (levels : Nat) : Json.Tidy (levels + 8) r.toJson := by
  have hgroups : Json.Tidy (levels + 7) (.arr (r.byTransition.map groupJson)) :=
    .arr (List.forall_mem_map.mpr fun g hg => tidy_groupJson (fun f hf => h f (Finding.mem_of_mem_groupBy hg hf)) levels)
  refine .obj r.nodup_members ?_ ?_
  · simp [Json.joined_ofString]
  · simpa [members] using ⟨.str _, r.summary.tidy_toJson _, hgroups⟩

theorem findingsOf?_sorted : findingsOf? r.toJson.sorted = some (r.byTransition.flatMap (·.2)) := by
  have hget := Json.get_sorted r.nodup_members "transitions"
  have hlist : Json.get r.members "transitions" = .arr (r.byTransition.map groupJson) := by rfl
  have hgroups : (r.byTransition.map fun g => (groupJson g).sorted).mapM groupOf? = some (r.byTransition.map (·.2)) :=
    Json.mapM_map_eq_some fun g hg => groupOf?_sorted fun f hf => h f (Finding.mem_of_mem_groupBy hg hf)
  rw [toJson_eq, Json.sorted, findingsOf?]
  simp only [Json.members?, Option.bind_eq_bind, Option.bind_some, hget, hlist, Json.sorted_arr_map, Json.items?,
    hgroups]
  rw [List.flatMap_def]
  rfl

end

end Report

end TransitionAudit

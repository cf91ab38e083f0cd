import TransitionAudit.Clock.Stamp

/-!
# Traces

A trace is a sequence of snapshots of one part of the screen, none stamped before the one it follows.
Only neighbours are compared: across different clocks this does not order the whole sequence.
-/

namespace TransitionAudit

/-- What a kind of trace and the things in it are called. -/
structure Vocabulary where
  /-- The name of the trace. -/
  trace : Text
  /-- The name of a part of the trace. -/
  slice : Text
  /-- The name of one thing in a snapshot. -/
  subject : Text

/-- A stamped state of one part of the screen. -/
class Snapshot (α : Type) where
  stamp : α → Stamp
  /-- The names of the visible things, in the order of the snapshot. -/
  visible : α → List Text
  /-- Whether two snapshots show the same at stamps that cannot be told apart. -/
  agrees : α → α → Bool
  words : Vocabulary

export Snapshot (stamp)

variable {α : Type} [Snapshot α]

/-! ## Order -/

/-- No snapshot is stamped before the one it follows. -/
def Ordered : List α → Prop
  | x :: y :: rest => ¬ stamp y < stamp x ∧ Ordered (y :: rest)
  | _ => True

/-- A snapshot that is stamped before the one it follows. -/
structure Disorder where
  trace : Text
  /-- The place of the later snapshot. -/
  index : Nat
  current : Stamp
  previous : Stamp

def Disorder.message (d : Disorder) : Text :=
  d.trace ++ " entries must be non-decreasing by timestamp: " ++
  "entry " ++ Numeral.nat d.index ++ " (" ++ d.current.text ++ ") precedes " ++
  "entry " ++ Numeral.nat (d.index - 1) ++ " (" ++ d.previous.text ++ ")"

/-- The first snapshot stamped before the one it follows, the first of the list being in place
`index`. -/
def disorder? (index : Nat) : List α → Option Disorder
  | x :: y :: rest =>
    if stamp y < stamp x then
      some ⟨(Snapshot.words α).trace, index + 1, stamp y, stamp x⟩
    else disorder? (index + 1) (y :: rest)
  | _ => none

theorem disorder?_eq_none_iff (index : Nat) (xs : List α) :
    disorder? index xs = none ↔ Ordered xs := by
  induction xs generalizing index with
  | nil => simp [disorder?, Ordered]
  | cons x xs ih =>
    cases xs with
    | nil => simp [disorder?, Ordered]
    | cons y rest =>
      by_cases h : stamp y < stamp x
      · simp [disorder?, Ordered, h]
      · simp [disorder?, Ordered, h, ih]

instance (xs : List α) : Decidable (Ordered xs) :=
  decidable_of_iff _ (Option.isNone_iff_eq_none.trans (disorder?_eq_none_iff 0 xs))

/-! ## Traces -/

/-- Snapshots in order. -/
structure Trace (α : Type) [Snapshot α] where
  entries : List α
  ordered : Ordered entries

/-- Why a trace has no such snapshot. -/
inductive LookupFault
  | empty (trace : Text)
  | noneBefore (trace : Text) (moment : Stamp)
  | outOfRange
  /-- An index that no sequence can have. -/
  | hugeIndex

def LookupFault.message : LookupFault → Text
  | .empty trace => trace ++ " is empty"
  | .noneBefore trace moment => "No " ++ trace ++ " entry at or before " ++ moment.text
  | .outOfRange => "tuple index out of range"
  | .hugeIndex => "cannot fit 'int' into an index-sized integer"

/-- No index is greater, or less than its negative minus one. -/
def maxIndex : Nat := 0x7fffffffffffffff

/-- The entry at an index; a negative one counts from the end. -/
def entryAt {β : Type} (xs : List β) (index : Int) : Except LookupFault β :=
  let i := if index < 0 then index + xs.length else index
  if (maxIndex : Int) < index || index < -(maxIndex : Int) - 1 then .error .hugeIndex
  else match i with
    | .ofNat n => if h : n < xs.length then .ok xs[n] else .error .outOfRange
    | .negSucc _ => .error .outOfRange

namespace Trace

/-- A trace of snapshots, if they are in order. -/
def of (entries : List α) : Except Disorder (Trace α) :=
  match h : disorder? 0 entries with
  | none => .ok ⟨entries, (disorder?_eq_none_iff 0 entries).1 h⟩
  | some d => .error d

def empty : Trace α := ⟨[], trivial⟩

instance : Inhabited (Trace α) := ⟨empty⟩

theorem of_eq_ok_iff {entries : List α} {t : Trace α} : of entries = .ok t ↔ t.entries = entries := by
  obtain ⟨es, ho⟩ := t
  unfold of
  split
  · simp only [Except.ok.injEq, Trace.mk.injEq]
    exact eq_comm
  · rename_i d h
    simp only [reduceCtorEq, false_iff]
    rintro rfl
    rw [(disorder?_eq_none_iff 0 _).2 ho] at h
    exact absurd h (by simp)

def isEmpty (t : Trace α) : Bool := t.entries.isEmpty

def first (t : Trace α) : Except LookupFault α :=
  match t.entries.head? with
  | some x => .ok x
  | none => .error (.empty (Snapshot.words α).trace)

def last (t : Trace α) : Except LookupFault α :=
  match t.entries.getLast? with
  | some x => .ok x
  | none => .error (.empty (Snapshot.words α).trace)

def get (t : Trace α) (index : Int) : Except LookupFault α := entryAt t.entries index

/-- The snapshots of a time window with its ends. They need not be in order by themselves, since
snapshots between them may be gone. -/
def within (t : Trace α) (start stop : Stamp) : Except Disorder (Trace α) :=
  of (t.entries.filter fun x => start ≤ stamp x && stamp x ≤ stop)

/-- The last snapshot before the first one stamped after the moment. -/
def latest (t : Trace α) (moment : Stamp) : Except LookupFault α :=
  match (t.entries.takeWhile fun x => !decide (moment < stamp x)).getLast? with
  | some x => .ok x
  | none => .error (.noneBefore (Snapshot.words α).trace moment)

/-- Whether two traces show the same at stamps that cannot be told apart. -/
def agrees (t u : Trace α) : Bool :=
  t.entries.length == u.entries.length &&
    (t.entries.zip u.entries).all fun (x, y) => Snapshot.agrees x y

/-- The extent of a trace on one line. -/
def text (t : Trace α) : Text :=
  let shown (x : Option α) : Text := (x.map fun x => (stamp x).text).getD "None"
  (Snapshot.words α).trace ++ "(entries=" ++ Numeral.nat t.entries.length ++ ", " ++
  "start=" ++ shown t.entries.head? ++ ", end=" ++ shown t.entries.getLast? ++ ")"

end Trace

end TransitionAudit

/-!
# Texts

A text is a sequence of code points. Besides characters there are surrogates: a document can write one
on its own as an escape, and it is kept. Texts are ordered by the numbers of their code points.
-/

namespace TransitionAudit

inductive CodePoint
  | char (c : Char)
  /-- A surrogate by its place among the surrogates. -/
  | surrogate (n : Fin 0x800)
  deriving DecidableEq, Repr, Inhabited

namespace CodePoint

instance : Coe Char CodePoint := ⟨.char⟩

/-- The number of the first surrogate. -/
def firstSurrogate : Nat := 0xd800

def number : CodePoint → Nat
  | .char c => c.toNat
  | .surrogate n => firstSurrogate + n

/-- The code point of a number. -/
def ofNumber? (n : Nat) : Option CodePoint :=
  if n.isValidChar then some (.char (Char.ofNat n))
  else if h : firstSurrogate ≤ n ∧ n - firstSurrogate < 0x800 then
    some (.surrogate ⟨n - firstSurrogate, h.2⟩)
  else none

instance : LT CodePoint := ⟨fun a b => a.number < b.number⟩

instance (a b : CodePoint) : Decidable (a < b) := inferInstanceAs (Decidable (a.number < b.number))

def isSurrogate : CodePoint → Bool
  | .char _ => false
  | .surrogate _ => true

/-- The character of a code point; a surrogate is shown as U+FFFD. -/
def shown : CodePoint → Char
  | .char c => c
  | .surrogate _ => '\ufffd'

end CodePoint

abbrev Text := List CodePoint

namespace Text

def ofChars (s : List Char) : Text := s.map .char

def ofString (s : String) : Text := ofChars s.toList

instance : Coe String Text := ⟨ofString⟩

/-- The characters of a text; surrogates are shown as U+FFFD. -/
def toChars (t : Text) : List Char := t.map CodePoint.shown

/-- The text as far as it consists of characters. -/
def toString (t : Text) : String := String.ofList t.toChars

theorem ofChars_inj {s t : List Char} : ofChars s = ofChars t ↔ s = t :=
  List.map_inj_right fun _ _ h => by cases h; rfl

theorem ofString_inj {s t : String} : ofString s = ofString t ↔ s = t := by
  rw [ofString, ofString, ofChars_inj, String.toList_inj]

theorem ofString_beq (s t : String) : (ofString s == ofString t) = (s == t) := by
  rw [Bool.eq_iff_iff, beq_iff_eq, beq_iff_eq, ofString_inj]

theorem toChars_ofChars (s : List Char) : (ofChars s).toChars = s := by
  simp [ofChars, toChars, CodePoint.shown, Function.comp_def]

end Text

end TransitionAudit

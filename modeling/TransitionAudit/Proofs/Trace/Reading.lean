import TransitionAudit.Command.Run
import TransitionAudit.Proofs.Trace.Collection
import TransitionAudit.Proofs.Trace.Lines
import TransitionAudit.Proofs.Text.Stream
import TransitionAudit.Proofs.Trace.Window
import Mathlib

/-!
# Reading the recordings of snapshots

A file with a text is read exactly if its lines are blank or rows and the rows are in order, and then as just these
rows. Otherwise the first bad line is to blame, wherever there is one. Blank lines make no difference, and files that
are put together have the rows of both.
-/

namespace TransitionAudit

/-- Whether a path leads to a file with a text in UTF-8. -/
def Tree.HoldsText (t : Tree) (p : Path) (text : List Char) : Prop :=
  ∃ octets, t.read p = .ok octets ∧ Text.Utf8.decode octets = ⟨text, none⟩

namespace Recording

variable {α : Type} [Snapshot α]

/-- What a message about a line of a file starts with. -/
def lineAt (p : Path) (number : Nat) : Text := p.text ++ ":" ++ Numeral.nat number ++ ": "

/-- Whether the message about a line names the file and the line, and is reported to the user of a command. -/
structure NamesLine (p : Path) (number : Nat) (fault : LineFault) : Prop where
  place : lineAt p number <+: (RecordingFault.badLine p.text number fault).message
  reported : Command.isRecordingReported (.badLine p.text number fault) = true

/-- What a reader of traces makes of a file with a text that splits into lines, given how it reads their rows. -/
structure ReadsText (room : Room) (read : Json → Except RowFault α) (reader : Tree → Path → Except RecordingFault (Trace α))
    (t : Tree) (p : Path) (text : List Char) (ls : List (List Char)) : Prop where
  /-- The file is read exactly if the lines that are not blank are rows, and these are in order. -/
  accepted : (∃ trace, reader t p = .ok trace) ↔
    ∃ xs, List.Forall₂ (IsRow room read) (Text.content ls) xs ∧ Ordered xs
  /-- What is read are the rows, in the order of the lines. -/
  entries : ∀ trace, reader t p = .ok trace ↔ List.Forall₂ (IsRow room read) (Text.content ls) trace.entries
  /-- The first bad line is to blame. It is named unless what it holds is nested too deep to be decoded at all. -/
  refused : ∀ line ∈ ls, ¬ Text.IsBlankLine line → (∀ x, ¬ IsRow room read line x) →
    ∃ number fault, FirstBad room read 1 ls number fault ∧ reader t p = .error (.badLine p.text number fault) ∧
      ((∀ isList, fault ≠ .json (.tooDeep isList)) → NamesLine p number fault)
  /-- Rows that are not in order are refused with the path of the file. -/
  disordered : ∀ xs, List.Forall₂ (IsRow room read) (Text.content ls) xs → ¬ Ordered xs →
    ∃ d, reader t p = .error (.disorder p.text d)
  /-- A file with blank lines put between these lines is read as the same. -/
  padded : ∀ trace, reader t p = .ok trace →
    ∀ t' p' text' ls', t'.HoldsText p' text' → Text.SplitsInto text' ls' → Text.Padded ls ls' →
      reader t' p' = .ok trace
  /-- If the text is that of two files put together, its entries are those of the one and then those of the other. -/
  joined : ∀ trace, reader t p = .ok trace → ∀ a b, text = a ++ b → Text.EndsLine a →
    ∀ t₁ p₁ t₂ p₂, t₁.HoldsText p₁ a → t₂.HoldsText p₂ b →
      ∃ first second, reader t₁ p₁ = .ok first ∧ reader t₂ p₂ = .ok second ∧
        trace.entries = first.entries ++ second.entries

section
variable {room : Room} {read : Json → Except RowFault α} {t : Tree} {p : Path} {text : List Char} {ls : List (List Char)}

omit [Snapshot α] in
theorem readFile_of_holdsText (hfile : t.HoldsText p text) (hlines : Text.SplitsInto text ls) :
    readFile room read t p = readLines room read p.text 1 ls := by
  obtain ⟨octets, hread, hdecode⟩ := hfile
  rw [readFile, hread, ← hlines.lines_eq]
  simp only [Except.mapError, bind, Except.bind, readOctets, Text.Utf8.stream_eq_none_iff.mpr hdecode, readText]

omit [Snapshot α] in
theorem FirstBad.namesLine {number : Nat} {fault : LineFault} (h : FirstBad room read 1 ls number fault)
    (habout : ∀ v w, read v ≠ .error (.collectionMode w)) (hdeep : ∀ isList, fault ≠ .json (.tooDeep isList)) :
    NamesLine p number fault := by
  obtain ⟨_, line, _, -, -, -, -, hfails⟩ := h
  cases fault with
  | json fault =>
      cases fault with
      | tooDeep isList => exact absurd rfl (hdeep isList)
      | longInteger digits => exact ⟨List.prefix_append _ _, rfl⟩
      | _ => exact ⟨(List.prefix_append _ _).trans (List.prefix_append _ _), rfl⟩
  | row fault =>
      cases fault with
      | collectionMode w =>
          obtain ⟨v, -, hrefused⟩ := hfails
          exact absurd hrefused (habout v w)
      | _ => exact ⟨List.prefix_append _ _, rfl⟩

variable {reader : Tree → Path → Except RecordingFault (Trace α)}
  (hreader : ∀ t p, reader t p = do (Trace.of (← readFile room read t p)).mapError (.disorder p.text))
include hreader

theorem reader_eq_ok_iff {trace : Trace α} (hfile : t.HoldsText p text) (hlines : Text.SplitsInto text ls) :
    reader t p = .ok trace ↔ List.Forall₂ (IsRow room read) (Text.content ls) trace.entries := by
  simp only [hreader, readFile_of_holdsText hfile hlines, Except.bind_eq_ok_iff, Except.mapError_eq_ok_iff,
    Trace.of_eq_ok_iff, exists_eq_right', readLines_eq_ok_iff]

theorem readsText_of (habout : ∀ v w, read v ≠ .error (.collectionMode w)) (hfile : t.HoldsText p text)
    (hlines : Text.SplitsInto text ls) : ReadsText room read reader t p text ls where
  accepted := by
    simp only [reader_eq_ok_iff hreader hfile hlines]
    constructor
    · rintro ⟨trace, h⟩
      exact ⟨trace.entries, h, trace.ordered⟩
    · rintro ⟨xs, h, hordered⟩
      exact ⟨⟨xs, hordered⟩, h⟩
  entries := fun trace => reader_eq_ok_iff hreader hfile hlines
  refused := by
    intro line hmem hline hrow
    obtain ⟨number, fault, hbad⟩ := exists_firstBad 1 hline hrow hmem
    refine ⟨number, fault, hbad, ?_, hbad.namesLine habout⟩
    rw [hreader, readFile_of_holdsText hfile hlines, Except.bind_eq_error_iff]
    exact Or.inl (readLines_eq_error_iff.mpr ⟨number, fault, hbad, rfl⟩)
  disordered := by
    intro xs hrows hdisorder
    have hread : readLines room read p.text 1 ls = .ok xs := readLines_eq_ok_iff.mpr hrows
    rw [hreader, readFile_of_holdsText hfile hlines, hread]
    cases hof : Trace.of xs with
    | ok trace => exact absurd (Trace.of_ok_iff_ordered.mp ⟨trace, hof⟩) hdisorder
    | error d => exact ⟨d, by simp [bind, Except.bind, hof, Except.mapError]⟩
  padded := by
    intro trace htrace t' p' text' ls' hfile' hlines' hpadded
    rw [reader_eq_ok_iff hreader hfile' hlines', hpadded.content_eq]
    exact (reader_eq_ok_iff hreader hfile hlines).mp htrace
  joined := by
    rintro trace htrace a b rfl hends t₁ p₁ t₂ p₂ hfirst hsecond
    have ha := Text.splitsInto_lines a
    have hb := Text.splitsInto_lines b
    rw [reader_eq_ok_iff hreader hfile hlines, ha.content_append hends hb hlines] at htrace
    obtain ⟨xs, ys, hentries, hxs, hys⟩ := htrace.exists_of_append_left
    -- neighbours in one of the two are neighbours in both together
    have hordered := hentries ▸ trace.ordered
    rw [Trace.ordered_iff_isChain, List.isChain_append, ← Trace.ordered_iff_isChain,
      ← Trace.ordered_iff_isChain] at hordered
    obtain ⟨hordered, hordered', -⟩ := hordered
    exact ⟨⟨xs, hordered⟩, ⟨ys, hordered'⟩, (reader_eq_ok_iff hreader hfirst ha).mpr hxs,
      (reader_eq_ok_iff hreader hsecond hb).mpr hys, hentries⟩

end

/-- The readers of both kinds of snapshots make of a file with a text what its lines hold. -/
theorem readsText {room : Room} {t : Tree} {p : Path} {text : List Char} {ls : List (List Char)} (hfile : t.HoldsText p text)
    (hlines : Text.SplitsInto text ls) :
    ReadsText room Row.toWindowState (windows room) t p text ls ∧
      ReadsText room Row.toLayerState (layers room) t p text ls :=
  ⟨readsText_of (fun _ _ => rfl) (fun _ _ => Row.toWindowState_ne_collectionMode) hfile hlines,
    readsText_of (fun _ _ => rfl) (fun _ _ => Row.toLayerState_ne_collectionMode) hfile hlines⟩

/-- A blank line, a row, a line with nothing but a space on it and another row, with three kinds of line ends. -/
def twoRows : String :=
  "\r\n\x7b\"timestamp\":5,\"windows\":[]\x7d\r\u2003\n\t\x7b\"timestamp\":7,\"windows\":[]\x7d"

def firstRow : String := "\x7b\"timestamp\":5,\"windows\":[]\x7d"

def secondRow : String := "\t\x7b\"timestamp\":7,\"windows\":[]\x7d"

def twoRowsTree : Tree := ⟨[(["in"], .file (twoRows.toList.flatMap Text.Utf8.encodeChar))], []⟩

def twoStates : WindowTrace := ⟨[⟨{ elapsed := 5 }, [], none⟩, ⟨{ elapsed := 7 }, [], none⟩], by decide⟩

theorem readsText_twoRows :
    twoRowsTree.HoldsText ⟨.relative, ["in"]⟩ twoRows.toList ∧
      Text.SplitsInto twoRows.toList [[], firstRow.toList, ['\u2003'], secondRow.toList] ∧
      windows .usual twoRowsTree ⟨.relative, ["in"]⟩ = .ok twoStates := by
  have hfile : twoRowsTree.HoldsText ⟨.relative, ["in"]⟩ twoRows.toList :=
    ⟨twoRows.toList.flatMap Text.Utf8.encodeChar, by cbv, by cbv⟩
  have hlines : Text.SplitsInto twoRows.toList [[], firstRow.toList, ['\u2003'], secondRow.toList] :=
    Text.splitsInto_iff.mpr (by cbv)
  have hbrace : Text.isBlank '\x7b' = false := by decide
  have hblank : Text.IsBlankLine ['\u2003'] := by
    have hspace : Text.isBlank '\u2003' = true := by decide
    simpa [Text.IsBlankLine] using hspace
  have hcontent : Text.content [[], firstRow.toList, ['\u2003'], secondRow.toList] =
      [firstRow.toList, secondRow.toList] := by
    rw [Text.content_cons_of_isBlankLine Text.isBlankLine_nil, Text.content_cons_of_not_isBlankLine,
      Text.content_cons_of_isBlankLine hblank, Text.content_cons_of_not_isBlankLine]
    · rfl
    · exact fun h => absurd (h '\x7b' (by simp [secondRow])) (by simp [hbrace])
    · exact fun h => absurd (h '\x7b' (by simp [firstRow])) (by simp [hbrace])
  have hrow : ∀ n : Nat, Row.toWindowState (.obj [("timestamp", .int n), ("windows", .arr [])]) =
      .ok ⟨{ elapsed := n }, [], none⟩ := fun _ => rfl
  refine ⟨hfile, hlines, ((readsText hfile hlines).1.entries twoStates).mpr ?_⟩
  rw [hcontent]
  exact .cons ⟨_, by cbv, hrow 5⟩ (.cons ⟨_, by cbv, hrow 7⟩ .nil)

end Recording

end TransitionAudit

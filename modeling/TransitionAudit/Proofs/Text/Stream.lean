import TransitionAudit.Text.Utf8

/-!
# Octets of a stream

A stream finds the same fault as a decoder that has all octets at once, and hands out the same text if there is
none. If there is one, the text of the chunks before it has been handed out already.
-/

namespace TransitionAudit.Text.Utf8

/-- Whether every octet fits those before it, though the last character may be cut off. -/
def IsSound (p : Pending) (octets : List UInt8) : Prop :=
  ∀ fault, (decodeFrom p octets).fault = some fault → fault = .truncated

variable {p q : Pending} {b : UInt8} {rest octets : List UInt8} {left : Nat} {held text : List Char}

theorem decodeFrom_cons (haccept : p.accept b.toNat = .ok q) :
    decodeFrom p (b :: rest) =
      ⟨(if q.owed = 0 then [Char.ofNat q.bits] else []) ++ (decodeFrom q rest).text, (decodeFrom q rest).fault⟩ := by
  rw [decodeFrom, haccept]
  by_cases howed : q.owed = 0 <;> simp [howed]

theorem IsSound.cons (h : IsSound p (b :: rest)) : ∃ q, p.accept b.toNat = .ok q ∧ IsSound q rest := by
  cases haccept : p.accept b.toNat with
  | error fault =>
      -- an octet that does not fit is a fault of its own, and none of characters that are cut off
      have hfault := h fault (by rw [decodeFrom, haccept])
      subst hfault
      unfold Pending.accept at haccept
      split at haccept
      · split at haccept <;> cases haccept
      · split at haccept <;> cases haccept
  | ok q =>
      refine ⟨q, rfl, fun fault hfault => h fault ?_⟩
      rw [decodeFrom_cons haccept]
      exact hfault

/-- The fault does not depend on the chunks. -/
theorem fault_streamFrom (octets : List UInt8) (p : Pending) (left : Nat) (held : List Char) :
    (streamFrom p left held octets).fault = (decodeFrom p octets).fault := by
  induction octets generalizing p left held with
  | nil => rfl
  | cons b rest ih =>
      cases haccept : p.accept b.toNat with
      | error fault => simp only [streamFrom, decodeFrom, haccept]
      | ok q =>
          rw [decodeFrom_cons haccept]
          simp only [streamFrom, haccept]
          split <;> exact ih ..

/-- Sound octets are handed out with the characters that are held back before them. -/
theorem text_streamFrom (h : IsSound p octets) :
    (streamFrom p left held octets).text = held.reverse ++ (decodeFrom p octets).text := by
  induction octets generalizing p left held with
  | nil => simp [streamFrom, decodeFrom]
  | cons b rest ih =>
      obtain ⟨q, haccept, hrest⟩ := h.cons
      rw [decodeFrom_cons haccept]
      simp only [streamFrom, haccept]
      split <;> rw [ih hrest] <;> by_cases howed : q.owed = 0 <;> simp [howed]

/-- The text of octets that fill the chunk they are in, and others after it, is handed out whatever follows. -/
theorem isPrefix_text_streamFrom (more : List UInt8) {chunks : Nat} (hleft : 0 < left)
    (hlength : octets.length = left + chunks * chunkSize) (h : IsSound p octets) :
    held.reverse ++ (decodeFrom p octets).text <+: (streamFrom p left held (octets ++ more)).text := by
  induction octets generalizing p left held chunks with
  | nil =>
      rw [List.length_nil] at hlength
      omega
  | cons b rest ih =>
      obtain ⟨q, haccept, hrest⟩ := h.cons
      rw [decodeFrom_cons haccept]
      rw [List.length_cons] at hlength
      simp only [List.cons_append, streamFrom, haccept]
      by_cases hlast : left ≤ 1
      · rw [if_pos hlast]
        cases chunks with
        | zero =>
            -- these were the last octets of the chunk
            obtain rfl : rest = [] := List.length_eq_zero_iff.mp (by omega)
            by_cases howed : q.owed = 0 <;> simp [howed, decodeFrom]
        | succ chunks =>
            have hnext := @ih q chunkSize [] chunks (by decide) (by rw [Nat.succ_mul] at hlength; omega) hrest
            rw [List.reverse_nil, List.nil_append] at hnext
            by_cases howed : q.owed = 0 <;> simpa [howed, List.prefix_append_right_inj] using hnext
      · rw [if_neg hlast]
        have hnext := @ih q (left - 1) (if q.owed = 0 then Char.ofNat q.bits :: held else held) chunks (by omega)
          (by omega) hrest
        by_cases howed : q.owed = 0 <;> simpa [howed] using hnext

/-! ## Whole streams -/

theorem fault_stream (octets : List UInt8) : (stream octets).fault = (decode octets).fault := fault_streamFrom ..

theorem stream_eq_none_iff : stream octets = ⟨text, none⟩ ↔ decode octets = ⟨text, none⟩ := by
  have hfault := fault_stream octets
  have hsame : (decode octets).fault = none → stream octets = decode octets := by
    intro hnone
    have hsound : IsSound ⟨0, 0, 0, 0⟩ octets := by
      intro fault h
      rw [← decode, hnone] at h
      cases h
    have htext : (stream octets).text = (decode octets).text := text_streamFrom hsound
    calc
      stream octets = ⟨(stream octets).text, (stream octets).fault⟩ := rfl
      _ = decode octets := by rw [htext, hfault]
  constructor
  · intro h
    rw [← hsame (by rw [← hfault, h]), h]
  · intro h
    rw [hsame (by rw [h]), h]

/-- The text of whole chunks is handed out before a fault in the octets after them. -/
theorem isPrefix_text_stream {octets : List UInt8} (more : List UInt8) {chunks : Nat}
    (hlength : octets.length = chunks * chunkSize) (h : IsSound ⟨0, 0, 0, 0⟩ octets) :
    (decode octets).text <+: (stream (octets ++ more)).text := by
  cases chunks with
  | zero =>
      obtain rfl : octets = [] := List.length_eq_zero_iff.mp (by omega)
      exact List.nil_prefix
  | succ chunks =>
      have hprefix := @isPrefix_text_streamFrom ⟨0, 0, 0, 0⟩ octets chunkSize [] more chunks (by decide)
        (by rw [hlength, Nat.succ_mul, Nat.add_comm]) h
      exact hprefix

end TransitionAudit.Text.Utf8

/-
Module: SymbolicCalculus.Proofs.Text.Regions
Layer: Proofs
Purpose: Regions and the pieces of a text that they name. A region lies in a text if its ends are places
  between characters of the text, the first not behind the second; that is so exactly for the regions
  of its pieces. A region of a piece is one of the text as well, moved to the place of the piece, and it
  holds the same characters there.
Main exports: Span.slice, slice_of_pieces, Span.IsIn, Span.isIn_iff_exists_pieces, Span.IsIn.cover,
  Span.IsIn.shift_and_slice
-/
import Mathlib
import SymbolicCalculus.Text.Span

namespace SymbolicCalculus

/-! ### Slices -/

/-- The part of a text that stands in a region. -/
def Span.slice (text : String) (span : Span) : String :=
  String.Pos.Raw.extract text ⟨span.start⟩ ⟨span.stop⟩

theorem utf8Len_eq (cs : List Char) : String.utf8Len cs = utf8Length cs := by
  induction cs with
  | nil => rfl
  | cons c cs ih => rw [String.utf8Len_cons, ih, utf8Length, Nat.add_comm]

/-- The region of a piece of the text holds the piece. -/
theorem slice_of_pieces {text : String} {before piece after : List Char}
    (pieces : text.toList = before ++ piece ++ after) :
    Span.slice text ⟨utf8Length before, utf8Length before + utf8Length piece⟩ =
      String.ofList piece := by
  have extracted := String.extract_of_valid before piece after
  rw [utf8Len_eq, utf8Len_eq, ← pieces, String.ofList_toList] at extracted
  exact extracted

/-! ### Places between characters -/

theorem utf8ByteSize_eq (text : String) : text.utf8ByteSize = utf8Length text.toList := by
  rw [← String.utf8Len_toList, utf8Len_eq]

/-- A place is between characters if it is the length of what stands before it. -/
theorem isValid_iff_exists_pieces {text : String} {place : Nat} :
    (⟨place⟩ : String.Pos.Raw).IsValid text ↔
      ∃ before after, text.toList = before ++ after ∧ place = utf8Length before := by
  rw [String.Pos.Raw.isValid_iff_exists_append]
  constructor
  · rintro ⟨before, after, rfl, place⟩
    refine ⟨before.toList, after.toList, String.toList_append, ?_⟩
    rw [← utf8ByteSize_eq, ← String.byteIdx_rawEndPos, ← place]
  · rintro ⟨before, after, pieces, rfl⟩
    refine ⟨String.ofList before, String.ofList after, ?_, ?_⟩
    · rw [← String.ofList_append, ← pieces, String.ofList_toList]
    · rw [String.Pos.Raw.ext_iff, String.byteIdx_rawEndPos, utf8ByteSize_eq, String.toList_ofList]

/-- Of two places between characters the first takes less of the text. -/
theorem isPrefix_of_utf8Length_le {before after before' after' : List Char}
    (same : before ++ after = before' ++ after') (le : utf8Length before ≤ utf8Length before') :
    before <+: before' := by
  rcases List.append_eq_append_iff.1 same with ⟨piece, rfl, -⟩ | ⟨piece, rfl, -⟩
  · exact List.prefix_append before piece
  · -- the piece is empty, as the characters in it would take bytes
    have empty : piece = [] := by
      cases piece with
      | nil => rfl
      | cons c cs =>
        have positive := c.utf8Size_pos
        rw [utf8Length_append, utf8Length] at le
        omega
    rw [empty, List.append_nil]

/-! ### Regions of a text -/

/-- The region is one of the text: its ends are places between characters of it, in order. -/
structure Span.IsIn (span : Span) (text : String) : Prop where
  ordered : span.start ≤ span.stop
  within : span.stop ≤ text.utf8ByteSize
  startValid : (⟨span.start⟩ : String.Pos.Raw).IsValid text
  stopValid : (⟨span.stop⟩ : String.Pos.Raw).IsValid text

namespace Span

/-- The regions of a text are those of its pieces. -/
theorem isIn_iff_exists_pieces {span : Span} {text : String} :
    span.IsIn text ↔ ∃ before piece after, text.toList = before ++ piece ++ after ∧
      span = ⟨utf8Length before, utf8Length before + utf8Length piece⟩ := by
  constructor
  · intro inside
    obtain ⟨before, behind, pieces, start⟩ := isValid_iff_exists_pieces.1 inside.startValid
    obtain ⟨upTo, after, pieces', stop⟩ := isValid_iff_exists_pieces.1 inside.stopValid
    have le : utf8Length before ≤ utf8Length upTo := start ▸ stop ▸ inside.ordered
    obtain ⟨piece, rfl⟩ := isPrefix_of_utf8Length_le (pieces ▸ pieces') le
    refine ⟨before, piece, after, pieces', ?_⟩
    rw [← utf8Length_append, ← start, ← stop]
  · rintro ⟨before, piece, after, pieces, rfl⟩
    refine ⟨Nat.le_add_right _ _, ?_, isValid_iff_exists_pieces.2 ?_,
      isValid_iff_exists_pieces.2 ?_⟩
    · rw [utf8ByteSize_eq, pieces, utf8Length_append, utf8Length_append]
      exact Nat.le_add_right _ _
    · exact ⟨before, piece ++ after, by rw [pieces, List.append_assoc], rfl⟩
    · exact ⟨before ++ piece, after, pieces, (utf8Length_append _ _).symm⟩

theorem isIn_of_pieces {text : String} {before piece after : List Char}
    (pieces : text.toList = before ++ piece ++ after) :
    IsIn ⟨utf8Length before, utf8Length before + utf8Length piece⟩ text :=
  isIn_iff_exists_pieces.2 ⟨before, piece, after, pieces, rfl⟩

/-- The whole text is a region of it. -/
theorem isIn_whole (text : String) : IsIn ⟨0, text.utf8ByteSize⟩ text :=
  isIn_iff_exists_pieces.2 ⟨[], text.toList, [], by simp, by simp [utf8Length, utf8ByteSize_eq]⟩

namespace IsIn

variable {text : String} {span : Span}

/-- The ends of a region are empty regions. -/
theorem point_stop (inside : span.IsIn text) : (point span.stop).IsIn text :=
  ⟨Nat.le_refl _, inside.within, inside.stopValid, inside.stopValid⟩

/-- From the beginning of one region to the end of another that does not end before it. -/
theorem cover {last : Span} (inside : span.IsIn text) (inside' : last.IsIn text)
    (ordered : span.start ≤ last.stop) : (span.cover last).IsIn text :=
  ⟨ordered, inside'.within, inside.startValid, inside'.stopValid⟩

variable {inner : String} {before after : List Char}

/-- A region of a piece is a region of the text around the piece, with the same characters. -/
theorem shift_and_slice (inside : span.IsIn inner)
    (pieces : text.toList = before ++ inner.toList ++ after) :
    (span.shift (utf8Length before)).IsIn text ∧
      (span.shift (utf8Length before)).slice text = span.slice inner := by
  obtain ⟨left, piece, right, own, rfl⟩ := isIn_iff_exists_pieces.1 inside
  have whole : text.toList = (before ++ left) ++ piece ++ (right ++ after) := by
    rw [pieces, own]
    simp only [List.append_assoc]
  have region : shift (utf8Length before)
      ⟨utf8Length left, utf8Length left + utf8Length piece⟩ =
        ⟨utf8Length (before ++ left), utf8Length (before ++ left) + utf8Length piece⟩ := by
    simp only [shift, utf8Length_append, Span.mk.injEq]
    omega
  rw [region, slice_of_pieces whole, slice_of_pieces own]
  exact ⟨isIn_of_pieces whole, rfl⟩

end IsIn

end Span

end SymbolicCalculus

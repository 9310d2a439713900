import Lexeme.Proofs.Text.Lines
import Lexeme.Report
import Mathlib.Data.List.DropRight

/-!
# Rows of a report

Main statement: the rows of a context carry consecutive numbers, from one on and up to the last that
a line can have, and all of them leave the same room for their numbers; the caret stands as far
behind that room as its place stands on the line.
-/

namespace Lexeme
namespace Report

theorem length_decimal_mono {m n : Nat} (h : m ≤ n) :
    (decimal m).length ≤ (decimal n).length := by
  have hpos : 0 < (decimal n).length := Nat.length_toDigits_pos
  have hn := (Nat.length_toDigits_le_iff (b := 10) (by decide) hpos).1 (Nat.le_refl _)
  exact (Nat.length_toDigits_le_iff (by decide) hpos).2 (Nat.lt_of_le_of_lt h hn)

theorem not_mem_decimal {c : Char} (h : c.isDigit = false) (n : Nat) : c ∉ decimal n := by
  intro hm
  have hdigit := Nat.isDigit_of_mem_toDigits (by decide) (by decide) hm
  rw [h] at hdigit
  cases hdigit

theorem le_getD_nextLabel? (label : Nat) : label ≤ (nextLabel? label).getD label := by
  unfold nextLabel?
  split
  · exact Nat.le_succ label
  · exact Nat.le_refl label

theorem length_decimal_le_labelWidth {label shown : Nat}
    (h : shown ≤ label ∨ nextLabel? label = some shown) :
    (decimal shown).length ≤ labelWidth label := by
  refine length_decimal_mono ?_
  rcases h with h | h
  · exact Nat.le_trans h (le_getD_nextLabel? label)
  · rw [h]
    exact Nat.le_refl shown

theorem toList_text (r : Report) (colour : Bool) : (r.text colour).toList = r.render colour :=
  String.toList_ofList

/-- The report of a place between two texts. -/
theorem render_of_append {r : Report} {before after : String}
    (hs : r.source? = some (before ++ after)) (h : before.utf8ByteSize = r.position.toNat)
    (colour : Bool) :
    r.render colour = r.header colour ++ r.location colour ++
      context colour r.line.toNat ⟨before.toList.reverse, after.toList⟩ := by
  have hplace : r.place? = some ⟨before.toList.reverse, after.toList⟩ := by
    rw [place?, hs, Option.bind_some, ← h, String.toList_append, ← byteLength_toList]
    exact Place.at?_byteLength before.toList after.toList
  rw [render, hplace, Option.elim_some]

/-- The parts of the context: the row above, the main row, the caret and the row below. -/
theorem context_eq_append (colour : Bool) (line : Nat) (p : Place) :
    context colour line p =
      p.above?.elim [] (row colour .blue (labelWidth (label line p)) (label line p - 1)) ++
        row colour .boldBlue (labelWidth (label line p)) (label line p) p.current ++
        caretRow colour (labelWidth (label line p)) p.column ++
        (nextLabel? (label line p)).elim [] fun next =>
          p.below?.elim [] (row colour .blue (labelWidth (label line p)) next) := by
  rw [context]
  cases nextLabel? (label line p) <;> cases p.below? <;> rfl

def gutter (width label : Nat) : List Char :=
  ' ' :: ' ' :: ((decimal label).leftpad width ' ' ++ [' '])

def numbered (width label : Nat) (text : List Char) : List Char :=
  gutter width label ++ (dropReturns text ++ ['\n'])

theorem length_gutter {width label : Nat} (h : (decimal label).length ≤ width) :
    (gutter width label).length = width + 3 := by
  simp [gutter]
  omega

theorem row_false (style : Ansi.Style) (width label : Nat) :
    row false style width label = numbered width label := by
  funext text
  simp [row, numbered, gutter]

theorem context_false_eq_append (line : Nat) (p : Place) :
    context false line p =
      p.above?.elim [] (numbered (labelWidth (label line p)) (label line p - 1)) ++
        numbered (labelWidth (label line p)) (label line p) p.current ++
        (List.replicate (labelWidth (label line p) + 3 + p.column) ' ' ++ ['^', '\n']) ++
        (nextLabel? (label line p)).elim [] fun next =>
          p.below?.elim [] (numbered (labelWidth (label line p)) next) := by
  simp only [context_eq_append, row_false]
  rfl

variable {p q : Place}

theorem row_congr {s t : List Char} (h : dropReturns s = dropReturns t) (colour : Bool)
    (style : Ansi.Style) (width label : Nat) :
    row colour style width label s = row colour style width label t := by
  rw [row, row, h]

theorem elim_row_congr {s? t? : Option (List Char)} (h : s?.map dropReturns = t?.map dropReturns)
    (colour : Bool) (style : Ansi.Style) (width label : Nat) :
    s?.elim [] (row colour style width label) = t?.elim [] (row colour style width label) := by
  cases s? with
  | none =>
    cases t? with
    | none => rfl
    | some t => cases h
  | some s =>
    cases t? with
    | none => cases h
    | some t => exact row_congr (Option.some.inj h) colour style width label

/-- A context is told by the label, the column and what is shown of three lines. -/
theorem context_congr {line line' : Nat} (hlabel : label line p = label line' q)
    (hcolumn : p.column = q.column)
    (habove : p.above?.map dropReturns = q.above?.map dropReturns)
    (hcurrent : dropReturns p.current = dropReturns q.current)
    (hbelow : p.below?.map dropReturns = q.below?.map dropReturns) (colour : Bool) :
    context colour line p = context colour line' q := by
  simp only [context_eq_append, hlabel, hcolumn, row_congr hcurrent, elim_row_congr habove,
    elim_row_congr hbelow]

/-- A row with its number in decimal at the right end of `width` columns, behind two spaces, and a
line behind one more, without the carriage returns at its end. -/
def Aligned (width number : Nat) (line row : List Char) : Prop :=
  ∃ pad, pad + (decimal number).length = width ∧ '\n' ∉ line ∧
    row = ' ' :: ' ' :: (List.replicate pad ' ' ++ decimal number ++
      ' ' :: (dropReturns line ++ ['\n']))

/-- A row that is there under a condition, and then shows the line that there is. -/
def AlignedIf (condition : Prop) (width number : Nat) (line? : Option (List Char))
    (row : List Char) : Prop :=
  (condition → ∃ line ∈ line?, Aligned width number line row) ∧ (¬condition → row = [])

section

variable {width number : Nat}

theorem aligned_numbered (h : (decimal number).length ≤ width) {text : List Char}
    (htext : '\n' ∉ text) : Aligned width number text (numbered width number text) := by
  refine ⟨width - (decimal number).length, Nat.sub_add_cancel h, htext, ?_⟩
  simp [numbered, gutter, List.leftpad]

theorem alignedIf_elim (h : (decimal number).length ≤ width) {text? : Option (List Char)}
    (htext : ∀ text, text? = some text → '\n' ∉ text) {condition : Prop}
    (hcondition : text? = none ↔ ¬condition) :
    AlignedIf condition width number text? (text?.elim [] (numbered width number)) := by
  cases text? with
  | none =>
    have hnot : ¬condition := hcondition.1 rfl
    exact ⟨fun hc => absurd hc hnot, fun _ => rfl⟩
  | some text =>
    have hnot : ¬¬condition := fun hc => Option.some_ne_none text (hcondition.2 hc)
    exact ⟨fun _ => ⟨text, rfl, aligned_numbered h (htext text rfl)⟩, fun hc => absurd hc hnot⟩

end

theorem labelWidth_eq (label : Nat) :
    labelWidth label = (decimal (if label < lastLabel then label + 1 else label)).length := by
  rw [labelWidth, nextLabel?]
  split <;> rfl

theorem alignedIf_above (label : Nat) (p : Place) :
    AlignedIf ('\n' ∈ p.before) (labelWidth label) (label - 1) p.above?
      (p.above?.elim [] (numbered (labelWidth label) (label - 1))) := by
  refine alignedIf_elim (length_decimal_le_labelWidth (.inl (Nat.sub_le label 1)))
    (fun _ => Place.break_not_mem_above) ?_
  rw [p.above?_eq_none_iff, p.index_eq_zero_iff]

theorem alignedIf_below (label : Nat) (p : Place) :
    AlignedIf ('\n' ∈ p.after ∧ label < lastLabel) (labelWidth label) (label + 1) p.below?
      ((nextLabel? label).elim [] fun next =>
        p.below?.elim [] (numbered (labelWidth label) next)) := by
  by_cases hlabel : label < lastLabel
  · have hnext : nextLabel? label = some (label + 1) := if_pos hlabel
    rw [hnext, Option.elim_some]
    refine alignedIf_elim (length_decimal_le_labelWidth (.inr hnext))
      (fun _ => Place.break_not_mem_below) ?_
    rw [Place.below?_eq_none_iff, and_iff_left hlabel]
  · have hnext : nextLabel? label = none := if_neg hlabel
    rw [hnext, Option.elim_none]
    exact ⟨fun h => absurd h.2 hlabel, fun _ => rfl⟩

theorem exists_aligned (line : Nat) (p : Place) :
    ∃ above main below,
      context false line p = above ++ main ++
        (List.replicate (labelWidth (label line p) + 3 + p.column) ' ' ++ ['^', '\n']) ++ below ∧
      AlignedIf ('\n' ∈ p.before) (labelWidth (label line p)) (label line p - 1) p.above? above ∧
      Aligned (labelWidth (label line p)) (label line p) p.current main ∧
      AlignedIf ('\n' ∈ p.after ∧ label line p < lastLabel) (labelWidth (label line p))
        (label line p + 1) p.below? below := by
  have hroom : (decimal (label line p)).length ≤ labelWidth (label line p) :=
    length_decimal_le_labelWidth (.inl (Nat.le_refl _))
  exact ⟨_, _, _, context_false_eq_append line p, alignedIf_above _ p,
    aligned_numbered hroom p.break_not_mem_current, alignedIf_below _ p⟩

/-- The line around the place is numbered as reported, unless more lines than that end before it,
and its neighbours have the number before and the number after. All of them are right-aligned to the
digits of the highest, each with its line of the source behind it, and the caret stands behind them
and three more columns as far as the place is from the start of its line. No number is zero, and in
a source of the size that a text can have none is beyond the last one. -/
theorem labels_of_rows (kind message before after : String) (position line : UInt64)
    (h : before.utf8ByteSize = position.toNat) :
    let r : Report := ⟨kind, message, position, line, some (before ++ after)⟩
    let lines := (before ++ after).toList.splitOn '\n'
    let index := before.toList.count '\n'
    let label := max line.toNat (index + 1)
    let highest := if label < 18446744073709551615 then label + 1 else label
    let width := (decimal highest).length
    let column := (before.toList.rtakeWhile (· ≠ '\n')).length
    (∃ above main below,
      (r.text false).toList = r.header false ++ r.location false ++
        (above ++ main ++ (List.replicate (width + 3 + column) ' ' ++ ['^', '\n']) ++ below) ∧
      AlignedIf ('\n' ∈ before.toList) width (label - 1) lines[index - 1]? above ∧
      (∃ text ∈ lines[index]?, Aligned width label text main) ∧
      AlignedIf ('\n' ∈ after.toList ∧ label < 18446744073709551615) width (label + 1)
        lines[index + 1]? below) ∧
    0 < label ∧ ('\n' ∈ before.toList → 0 < label - 1) ∧
    ((before ++ after).utf8ByteSize < 0x8000000000000000 → label ≤ 18446744073709551615) := by
  intro r lines index label highest width column
  refine ⟨?_, ?_, ?_, ?_⟩
  · let p : Place := ⟨before.toList.reverse, after.toList⟩
    have hlines : p.source.splitOn '\n' = lines := by
      rw [Place.source_reverse, ← String.toList_append]
    have hindex : p.index = index := Place.index_reverse ..
    have hlabel : Report.label line.toNat p = label := by rw [Report.label, hindex]
    have hwidth : labelWidth label = width := labelWidth_eq label
    obtain ⟨above, main, below, hcontext, habove, hmain, hbelow⟩ := exists_aligned line.toNat p
    have hcurrent := p.getElem?_current
    rw [← p.getElem?_below] at hbelow
    simp only [hlabel, hwidth, hlines, hindex] at hcontext habove hmain hbelow hcurrent
    refine ⟨above, main, below, ?_, ⟨fun hm => ?_, fun hm => ?_⟩, ⟨_, hcurrent, hmain⟩, hbelow⟩
    · rw [toList_text, render_of_append rfl h, hcontext]
      rfl
    · have hpos : 0 < p.index := hindex ▸ List.count_pos_iff.2 hm
      have hline := Place.getElem?_above hpos
      rw [hlines, hindex] at hline
      rw [hline]
      exact habove.1 (List.mem_reverse.2 hm)
    · exact habove.2 (mt List.mem_reverse.1 hm)
  · omega
  · intro hm
    have hindex : 0 < index := List.count_pos_iff.2 hm
    omega
  · intro hsize
    have hindex : index ≤ before.utf8ByteSize :=
      byteLength_toList before ▸ Nat.le_trans List.count_le_length (length_le_byteLength _)
    have hline : line.toNat < 18446744073709551616 := line.toNat_lt
    rw [String.utf8ByteSize_append] at hsize
    omega

/-- The number of the row below has one digit more than the other two. -/
theorem labels_of_rows_ten :
    let r : Report := ⟨"Error", "bad", 4, 9, some ("a\né" ++ "c\nd")⟩
    "a\né".utf8ByteSize = (4 : UInt64).toNat ∧
      (∃ above main below,
        (r.text false).toList = r.header false ++ r.location false ++
          (above ++ main ++ "      ^\n".toList ++ below) ∧
        Aligned 2 8 "a".toList above ∧ Aligned 2 9 "éc".toList main ∧
        Aligned 2 10 "d".toList below) ∧
      ("a\né" ++ "c\nd").utf8ByteSize < 0x8000000000000000 ∧ 9 ≤ 18446744073709551615 := by
  intro r
  have h : "a\né".utf8ByteSize = (4 : UInt64).toNat := by decide
  have hsize : ("a\né" ++ "c\nd").utf8ByteSize < 0x8000000000000000 := by decide
  obtain ⟨⟨above, main, below, htext, habove, ⟨text, hline, hmain⟩, hbelow⟩, -, -, hlast⟩ :=
    labels_of_rows "Error" "bad" "a\né" "c\nd" 4 9 h
  obtain ⟨first, hfirst, habove⟩ := habove.1 (by decide)
  obtain ⟨third, hthird, hbelow⟩ := hbelow.1 (by decide)
  obtain rfl : "a".toList = first := Option.some.inj hfirst
  obtain rfl : "éc".toList = text := Option.some.inj hline
  obtain rfl : "d".toList = third := Option.some.inj hthird
  exact ⟨h, ⟨above, main, below, htext, habove, hmain, hbelow⟩, hsize, hlast hsize⟩

end Report
end Lexeme

import Lexeme.Proofs.Report.Rows

/-!
# No fault in a report

Main statement: for a source of the size that a text can have, no step of a report is a fault,
wherever the reported place is and whatever its line is said to be, and the checked report is the
report.
-/

namespace Lexeme
namespace Report
namespace Bounded

theorem ok_bind {ε α β : Type} (a : α) (f : α → Except ε β) : (Except.ok a >>= f) = f a := rfl

theorem word_of_lt {n : Nat} (h : n < UInt64.size) : word n = .ok n := if_pos h

theorem add_of_lt {m n : Nat} (h : m + n < UInt64.size) : add m n = .ok (m + n) := if_pos h

theorem sub_of_le {m n : Nat} (h : n ≤ m) : sub m n = .ok (m - n) := if_pos h

theorem lineAt_of_getElem? {lines : List (List Char)} {i : Nat} {text : List Char}
    (h : lines[i]? = some text) : lineAt lines i = .ok text := by
  rw [lineAt, h, Option.elim_some]

theorem upTo_append (s t : List Char) : upTo (s ++ t) (byteLength s) = .ok s := by
  rw [upTo, Place.at?_byteLength, Option.elim_some, List.reverse_reverse]

theorem between_append (s t u : List Char) :
    between (s ++ t ++ u) (byteLength s) (byteLength (s ++ t)) = .ok t := by
  rw [between, upTo_append, ok_bind, Place.at?_byteLength, Option.elim_some]

theorem lastBreak?_of_not_mem {s : List Char} (h : '\n' ∉ s) : lastBreak? s = none := by
  induction s with
  | nil => rfl
  | cons c s ih =>
    rw [List.mem_cons, not_or] at h
    simp [lastBreak?, ih h.2, Ne.symm h.1]

theorem lastBreak?_append {t : List Char} (h : '\n' ∉ t) (s : List Char) :
    lastBreak? (s ++ '\n' :: t) = some (byteLength s) := by
  induction s with
  | nil => simp [lastBreak?, lastBreak?_of_not_mem h]
  | cons c s ih => simp [lastBreak?, ih]

theorem nextLabel?_eq (label : Nat) : nextLabel? label = Report.nextLabel? label := by
  have hsize : label + 1 < UInt64.size ↔ label < lastLabel := by
    rw [lastLabel, UInt64.size]
    omega
  rw [nextLabel?, add, word, Report.nextLabel?]
  by_cases h : label < lastLabel
  · rw [if_pos h, if_pos (hsize.2 h)]
    rfl
  · rw [if_neg h, if_neg (hsize.not.2 h)]
    rfl

theorem row_of_le {width label : Nat} (h : (decimal label).length ≤ width) (colour : Bool)
    (style : Ansi.Style) (text : List Char) :
    row colour style width label text = .ok (Report.row colour style width label text) := if_pos h

section

variable {p : Place} (colour : Bool)

theorem label_eq (line : Nat) (h : p.index + 1 < UInt64.size) :
    label line p.index = .ok (Report.label line p) := by
  rw [label, Report.label]
  split
  · rw [Nat.max_eq_left (by omega)]
  · rw [add_of_lt h, Nat.max_eq_right (by omega)]

theorem upTo_before (p : Place) : upTo p.source (byteLength p.before) = .ok p.before.reverse := by
  rw [Place.source, ← byteLength_reverse]
  exact upTo_append _ _

theorem exists_lineStart (p : Place) (h : byteLength p.before < UInt64.size) :
    ∃ start, lineStart p.before.reverse = .ok start ∧
      between p.source start (byteLength p.before) = .ok p.lead := by
  obtain ⟨head, hhead, hlead, hends⟩ := p.exists_head
  have hcut : byteLength p.before = byteLength (head ++ p.lead) := by
    rw [← hhead, byteLength_reverse]
  refine ⟨byteLength head, ?_, ?_⟩
  · rw [lineStart, hhead]
    rcases hends with rfl | ⟨front, rfl⟩
    · rw [List.nil_append, lastBreak?_of_not_mem hlead]
      rfl
    · -- the line begins one byte behind the last line feed
      have hbreak : byteLength (front ++ ['\n']) = byteLength front + 1 := byteLength_append ..
      rw [byteLength_append, hbreak] at hcut
      rw [List.append_assoc, List.singleton_append, lastBreak?_append hlead, Option.elim_some,
        add_of_lt (by omega), hbreak]
  · rw [Place.source, hhead, hcut]
    exact between_append _ _ _

theorem above_eq {line width : Nat}
    (h : ∀ shown ≤ Report.label line p, (decimal shown).length ≤ width) :
    above colour width (Report.label line p) p.index (p.source.splitOn '\n') =
      .ok (p.above?.elim [] (Report.row colour .blue width (Report.label line p - 1))) := by
  have hlabel : p.index + 1 ≤ Report.label line p := Nat.le_max_right ..
  unfold above
  by_cases hi : p.index = 0
  · rw [if_neg (by omega), p.above?_eq_none_iff.2 hi, Option.elim_none]
  · obtain ⟨text, htext⟩ := Option.ne_none_iff_exists'.1 (mt p.above?_eq_none_iff.1 hi)
    have hline := p.getElem?_above (Nat.pos_of_ne_zero hi)
    rw [htext] at hline
    rw [if_pos (by omega), sub_of_le (by omega), ok_bind, sub_of_le (by omega), ok_bind,
      lineAt_of_getElem? hline, ok_bind, row_of_le (h _ (by omega)), htext, Option.elim_some]

theorem current_eq {width label : Nat} (h : (decimal label).length ≤ width) :
    current colour width label p.index (p.source.splitOn '\n') =
      .ok (Report.row colour .boldBlue width label p.current) := by
  rw [current, lineAt_of_getElem? p.getElem?_current, ok_bind, row_of_le h]

theorem caretRow_eq {width column : Nat} (h : width + 3 + column < UInt64.size) :
    caretRow colour width column = .ok (Report.caretRow colour width column) := by
  rw [caretRow, add_of_lt (by omega), ok_bind, add_of_lt h, ok_bind, Report.caretRow]

theorem below_eq {width : Nat} {next? : Option Nat} (hi : p.index + 1 < UInt64.size)
    (h : ∀ next, next? = some next → (decimal next).length ≤ width) :
    below colour width p.index next? (p.source.splitOn '\n') =
      .ok (next?.elim [] fun next => p.below?.elim [] (Report.row colour .blue width next)) := by
  rw [below, add_of_lt hi, ok_bind]
  cases next? with
  | none => rfl
  | some next =>
    have hline := p.getElem?_below
    cases htext : p.below? with
    | none =>
      rw [htext, List.getElem?_eq_none_iff] at hline
      simp only [if_neg (Nat.not_lt.2 hline), Option.elim_some, Option.elim_none]
    | some text =>
      rw [htext] at hline
      obtain ⟨hlt, -⟩ := List.getElem?_eq_some_iff.1 hline
      simp only [if_pos hlt, lineAt_of_getElem? hline, ok_bind, row_of_le (h next rfl),
        Option.elim_some]

end

theorem labelWidth_le {label : Nat} (h : label < UInt64.size) : labelWidth label ≤ 20 := by
  have hmax : (Report.nextLabel? label).getD label ≤ lastLabel := by
    rw [Report.nextLabel?]
    split
    · rename_i hl
      exact hl
    · exact Nat.le_sub_one_of_lt h
  exact Nat.le_trans (length_decimal_mono hmax) (by decide)

/-- Around every offset, and for every line number, the checked context has no fault and is the
context. -/
theorem context_eq (colour : Bool) {line : Nat} (offset : Nat) {source : List Char}
    (hline : line < UInt64.size) (h : byteLength source < 0x8000000000000000) :
    context colour line offset source =
      .ok ((Place.at? source offset).elim [] (Report.context colour line)) := by
  cases hp : Place.at? source offset with
  | none =>
    rw [context, if_pos (.inr hp)]
    rfl
  | some p =>
    obtain ⟨rfl, rfl⟩ := Place.at?_eq_some_iff.1 hp
    have hsize : UInt64.size = 0x10000000000000000 := rfl
    have hbytes : byteLength p.source = byteLength p.before + byteLength p.after := by
      rw [Place.source, byteLength_append, byteLength_reverse]
    have hindex := p.index_le_byteLength
    have hcolumn := p.column_le_byteLength
    have hlabel : Report.label line p < UInt64.size := Nat.max_lt.2 ⟨hline, by omega⟩
    have hwidth := labelWidth_le hlabel
    have hcount : p.before.reverse.count '\n' = p.index := List.count_reverse
    have hlength : p.lead.length = p.column := rfl
    have hroom : (decimal ((Report.nextLabel? (Report.label line p)).getD
        (Report.label line p))).length = labelWidth (Report.label line p) := rfl
    have hfits {shown : Nat} (hshown : shown ≤ Report.label line p ∨
        Report.nextLabel? (Report.label line p) = some shown) :
        (decimal shown).length ≤ labelWidth (Report.label line p) :=
      length_decimal_le_labelWidth hshown
    have hinside : ¬(byteLength p.source < byteLength p.before ∨
        Place.at? p.source (byteLength p.before) = none) := by
      rw [hp, not_or]
      exact ⟨by omega, Option.some_ne_none p⟩
    obtain ⟨start, hstart, hlead⟩ := exists_lineStart p (by omega)
    rw [context, if_neg hinside, upTo_before]
    simp only [ok_bind, hcount, word_of_lt (show p.index < UInt64.size by omega), hstart, hlead,
      hlength, word_of_lt (show p.column < UInt64.size by omega),
      label_eq line (show p.index + 1 < UInt64.size by omega), nextLabel?_eq, hroom,
      above_eq colour fun shown hshown => hfits (.inl hshown),
      current_eq colour (hfits (.inl (Nat.le_refl _)))]
    rw [caretRow_eq colour (by omega), ok_bind,
      below_eq colour (by omega) fun next hnext => hfits (.inr hnext), ok_bind,
      ← context_eq_append, Option.elim_some]

/-- The report of a token whose source has the size that a text can have: no step of it is a fault,
and it is the report that is shown. No offset, line number or name makes a difference. -/
theorem render_eq_ok (r : Report) (colour : Bool)
    (h : ∀ source, r.source? = some source → source.utf8ByteSize < 0x8000000000000000) :
    render r colour = .ok (r.render colour) := by
  have hline : r.line.toNat < UInt64.size := r.line.toNat_lt
  cases hs : r.source? with
  | none =>
    rw [render, hs, Report.render, place?, hs]
    rfl
  | some source =>
    have hsize : byteLength source.toList < 0x8000000000000000 := by
      rw [byteLength_toList]
      exact h source hs
    rw [render, hs, Option.elim_some, context_eq colour _ hline hsize, ok_bind, Report.render,
      place?, hs, Option.bind_some]

/-- No number comes after the last one, so the row below is left out. -/
theorem render_eq_ok_last_label :
    let r : Report := ⟨"Error", "bad", 3, 18446744073709551615, some "é\na\nb"⟩
    (∀ source, r.source? = some source → source.utf8ByteSize < 0x8000000000000000) ∧
      render r false = .ok ("Error: bad\n  --> line 18446744073709551615, pos 3\n" ++
        "  18446744073709551614 é\n  18446744073709551615 a\n" ++
        "                       ^\n").toList := by
  intro r
  have h : ∀ source, r.source? = some source → source.utf8ByteSize < 0x8000000000000000 := by
    rintro _ ⟨⟩
    decide
  refine ⟨h, ?_⟩
  rw [render_eq_ok r false h]
  decide +kernel

end Bounded
end Report
end Lexeme

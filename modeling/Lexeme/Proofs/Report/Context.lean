import Lexeme.Proofs.Report.Rows

/-!
# What a context is told from

A context shows the line of a place and one line on either side of it. Main statements: if every
line end gets a carriage return, and the place moves on by one byte for each line end before it, the
report shows the same rows; lines put in front of the three make no difference, if the place has its
number reported, and neither does any text put behind them.
-/

namespace Lexeme

/-- A text with a carriage return in front of every line feed. -/
def withReturns (s : List Char) : List Char :=
  s.flatMap fun c => if c = '\n' then ['\r', '\n'] else [c]

theorem withReturns_cons (c : Char) (s : List Char) :
    withReturns (c :: s) = (if c = '\n' then ['\r', '\n'] else [c]) ++ withReturns s :=
  List.flatMap_cons

theorem withReturns_append (s t : List Char) :
    withReturns (s ++ t) = withReturns s ++ withReturns t :=
  List.flatMap_append

theorem count_withReturns (s : List Char) : (withReturns s).count '\n' = s.count '\n' := by
  induction s with
  | nil => rfl
  | cons c s ih =>
    rw [withReturns_cons, List.count_append, ih]
    by_cases hc : c = '\n' <;> simp [hc, Nat.add_comm]

theorem byteLength_withReturns (s : List Char) :
    byteLength (withReturns s) = byteLength s + s.count '\n' := by
  induction s with
  | nil => rfl
  | cons c s ih =>
    rw [withReturns_cons, byteLength_append, ih]
    by_cases hc : c = '\n'
    · subst hc
      have hbreak : byteLength ['\r', '\n'] = Char.utf8Size '\n' + 1 := by decide
      rw [if_pos rfl, hbreak, byteLength_cons, List.count_cons_self]
      omega
    · rw [if_neg hc, byteLength_cons, byteLength_cons, byteLength_nil, List.count_cons_of_ne hc]
      omega

theorem rtakeWhile_withReturns (s : List Char) :
    (withReturns s).rtakeWhile (· ≠ '\n') = s.rtakeWhile (· ≠ '\n') := by
  induction s using List.reverseRecOn with
  | nil => rfl
  | append_singleton s c ih =>
    rw [withReturns_append, withReturns_cons]
    by_cases hc : c = '\n'
    · simp [hc, withReturns]
    · simp only [hc, if_false, withReturns, List.flatMap_nil, List.append_nil,
        List.rtakeWhile_concat] at ih ⊢
      rw [ih]

theorem map_dropReturns_modifyHead {ls ms : List (List Char)} (c : Char)
    (h : ls.map dropReturns = ms.map dropReturns) :
    (ls.modifyHead (c :: ·)).map dropReturns = (ms.modifyHead (c :: ·)).map dropReturns := by
  cases ls with
  | nil =>
    obtain rfl : ms = [] := List.map_eq_nil_iff.1 h.symm
    rfl
  | cons l ls =>
    cases ms with
    | nil => cases h
    | cons m ms =>
      rw [List.map_cons, List.map_cons] at h
      obtain ⟨hl, hls⟩ := List.cons.inj h
      have hhead : dropReturns ([c] ++ l) = dropReturns ([c] ++ m) := by
        rw [dropReturns_append, dropReturns_append, hl]
      rw [List.modifyHead_cons, List.modifyHead_cons, List.map_cons, List.map_cons, hls]
      exact congrArg (· :: _) hhead

/-- The lines are shown as before. -/
theorem map_dropReturns_splitOn_withReturns (s : List Char) :
    ((withReturns s).splitOn '\n').map dropReturns = (s.splitOn '\n').map dropReturns := by
  induction s with
  | nil => rfl
  | cons c s ih =>
    rw [withReturns_cons, List.splitOn_cons_eq_if_modifyHead c s]
    by_cases hc : c = '\n'
    · have hbreak : (['\r', '\n'] ++ withReturns s).splitOn '\n' =
          ['\r'] :: (withReturns s).splitOn '\n' :=
        List.splitOn_append_cons_self_of_not_mem (show '\n' ∉ ['\r'] by decide) (withReturns s)
      rw [if_pos hc, hbreak, if_pos (beq_iff_eq.2 hc), List.map_cons, List.map_cons, ih]
      rfl
    · have hne : ¬(c == '\n') = true := by rwa [beq_iff_eq]
      rw [if_neg hc, List.singleton_append, List.splitOn_cons_eq_if_modifyHead, if_neg hne,
        if_neg hne]
      exact map_dropReturns_modifyHead c ih

namespace Report

variable {p q : Place}

/-- Places with as many lines before them see the same lines if their sources show the same. -/
theorem context_congr_of_lines (line : Nat) (hindex : p.index = q.index)
    (hcolumn : p.column = q.column)
    (h : (p.source.splitOn '\n').map dropReturns = (q.source.splitOn '\n').map dropReturns)
    (colour : Bool) : context colour line p = context colour line q := by
  have hline (i : Nat) : (p.source.splitOn '\n')[i]?.map dropReturns =
      (q.source.splitOn '\n')[i]?.map dropReturns := by
    rw [← List.getElem?_map, h, List.getElem?_map]
  refine context_congr ?_ hcolumn ?_ ?_ ?_ colour
  · rw [label, label, hindex]
  · by_cases hi : q.index = 0
    · rw [q.above?_eq_none_iff.2 hi, p.above?_eq_none_iff.2 (hindex.trans hi)]
    · have hq := Nat.pos_of_ne_zero hi
      rw [← Place.getElem?_above hq, ← Place.getElem?_above (hindex ▸ hq), hline, hindex]
  · have hcurrent := hline p.index
    rw [p.getElem?_current, hindex, q.getElem?_current] at hcurrent
    exact Option.some.inj hcurrent
  · rw [← p.getElem?_below, ← q.getElem?_below, hline, hindex]

/-- A report on a source with carriage returns added in front of its line feeds, at a place that has
moved on by those before it, shows the rows that it shows without them. -/
theorem context_withReturns (kind message before after : String) (position shifted line : UInt64)
    (colour : Bool) (h : before.utf8ByteSize = position.toNat)
    (hshifted : position.toNat + before.toList.count '\n' = shifted.toNat) :
    let source := before ++ after
    let r : Report := ⟨kind, message, position, line, some source⟩
    let r' : Report :=
      ⟨kind, message, shifted, line, some (String.ofList (withReturns source.toList))⟩
    let rows := context colour line.toNat ⟨before.toList.reverse, after.toList⟩
    (r.text colour).toList = r.header colour ++ r.location colour ++ rows ∧
      (r'.text colour).toList = r'.header colour ++ r'.location colour ++ rows := by
  intro source r r' rows
  refine ⟨?_, ?_⟩
  · rw [toList_text, render_of_append rfl h]
  · let before' := String.ofList (withReturns before.toList)
    let after' := String.ofList (withReturns after.toList)
    have hsource : r'.source? = some (before' ++ after') := by
      rw [← String.ofList_append, ← withReturns_append, ← String.toList_append]
    have hsize : before'.utf8ByteSize = shifted.toNat := by
      rw [← byteLength_eq_utf8ByteSize, byteLength_withReturns, byteLength_toList, h, hshifted]
    rw [toList_text, render_of_append hsource hsize, String.toList_ofList, String.toList_ofList]
    refine congrArg (_ ++ ·) (context_congr_of_lines line.toNat ?_ ?_ ?_ colour)
    · rw [Place.index_reverse, Place.index_reverse, count_withReturns]
    · exact congrArg List.length (rtakeWhile_withReturns before.toList)
    · rw [Place.source_reverse, Place.source_reverse, ← withReturns_append,
        map_dropReturns_splitOn_withReturns]

/-- At a line end the place stays in front of the added carriage return. -/
theorem context_withReturns_line_end :
    let r : Report := ⟨"Error", "bad", 4, 7, some ("a\né" ++ "\n\nb")⟩
    let r' : Report := ⟨"Error", "bad", 5, 7, some "a\r\né\r\n\r\nb"⟩
    "a\né".utf8ByteSize = (4 : UInt64).toNat ∧
      (4 : UInt64).toNat + "a\né".toList.count '\n' = (5 : UInt64).toNat ∧
      (r.text false).toList = r.header false ++ r.location false ++
        "  6 a\n  7 é\n     ^\n  8 \n".toList ∧
      (r'.text false).toList = r'.header false ++ r'.location false ++
        "  6 a\n  7 é\n     ^\n  8 \n".toList := by
  intro r r'
  have h : "a\né".utf8ByteSize = (4 : UInt64).toNat := by decide
  have hshifted : (4 : UInt64).toNat + "a\né".toList.count '\n' = (5 : UInt64).toNat := by decide
  have hrows : context false 7 ⟨"a\né".toList.reverse, "\n\nb".toList⟩ =
      "  6 a\n  7 é\n     ^\n  8 \n".toList := by decide +kernel
  have hreturns : String.ofList (withReturns ("a\né" ++ "\n\nb").toList) = "a\r\né\r\n\r\nb" := by
    decide +kernel
  have hboth := context_withReturns "Error" "bad" "a\né" "\n\nb" 4 5 7 false h hshifted
  simp only [hreturns] at hboth
  refine ⟨h, hshifted, ?_, ?_⟩
  · rw [hboth.1]
    exact congrArg (_ ++ ·) hrows
  · rw [hboth.2]
    exact congrArg (_ ++ ·) hrows

end Report

theorem takeWhile_break_append {s t : List Char}
    (h : '\n' ∈ s ∨ ∀ c, t.head? = some c → c = '\n') :
    (s ++ t).takeWhile (· ≠ '\n') = s.takeWhile (· ≠ '\n') := by
  rcases eq_line_or_exists_break s with ⟨hs, ht, -⟩ | ⟨a, b, rfl, ha, ht, -⟩
  · have hhead : ∀ c, t.head? = some c → c = '\n' := h.resolve_left hs
    have hnil : t.takeWhile (· ≠ '\n') = [] := by
      cases t with
      | nil => rfl
      | cons c t =>
        obtain rfl : c = '\n' := hhead c rfl
        rfl
    rw [List.takeWhile_append_of_pos (List.takeWhile_eq_self_iff.1 ht), hnil, List.append_nil, ht]
  · have hrest : a ++ '\n' :: b ++ t = a ++ '\n' :: (b ++ t) := List.append_assoc ..
    rw [ht, hrest, List.takeWhile_append_of_pos (ne_break_of_not_mem ha)]
    simp

theorem secondLine?_append {s t : List Char} (hs : '\n' ∈ s)
    (h : 2 ≤ s.count '\n' ∨ ∀ c, t.head? = some c → c = '\n') :
    secondLine? (s ++ t) = secondLine? s := by
  rcases eq_line_or_exists_break s with ⟨hn, -, -⟩ | ⟨a, b, rfl, ha, -, hd⟩
  · exact absurd hs hn
  · have hb : '\n' ∈ b ∨ ∀ c, t.head? = some c → c = '\n' := by
      refine h.imp_left fun hcount => ?_
      rw [List.count_append, List.count_eq_zero.2 ha, List.count_cons_self] at hcount
      exact List.count_pos_iff.1 (by omega)
    rw [secondLine?, secondLine?, List.dropWhile_append, if_neg (by simp), hd,
      List.cons_append]
    exact congrArg some (takeWhile_break_append hb)

namespace Report

variable {before after t : List Char}

/-- Lines in front of the one above do not show. -/
theorem context_append_before {line : Nat} (hb : '\n' ∈ before)
    (ht : ∀ c, t.head? = some c → c = '\n') (hline : (before ++ t).count '\n' < line)
    (colour : Bool) :
    context colour line ⟨before ++ t, after⟩ = context colour line ⟨before, after⟩ := by
  have hlead : (Place.mk (before ++ t) after).lead = (Place.mk before after).lead :=
    congrArg List.reverse (takeWhile_break_append (.inl hb))
  refine context_congr (p := ⟨before ++ t, after⟩) (q := ⟨before, after⟩) ?_ ?_ ?_ ?_ rfl colour
  · have hcount : before.count '\n' ≤ (before ++ t).count '\n' := by
      rw [List.count_append]
      exact Nat.le_add_right _ _
    simp only [label, Place.index]
    omega
  · rw [Place.column, Place.column, hlead]
  · rw [Place.above?, Place.above?, secondLine?_append hb (.inr ht)]
  · rw [Place.current, Place.current, hlead]
    rfl

theorem context_append_after (line : Nat) (ha : 2 ≤ after.count '\n') (colour : Bool) :
    context colour line ⟨before, after ++ t⟩ = context colour line ⟨before, after⟩ := by
  have hbreak : '\n' ∈ after := List.count_pos_iff.1 (by omega)
  refine context_congr (p := ⟨before, after ++ t⟩) (q := ⟨before, after⟩) rfl rfl rfl ?_ ?_ colour
  · have htrail : (Place.mk before (after ++ t)).trail = (Place.mk before after).trail :=
      takeWhile_break_append (.inl hbreak)
    rw [Place.current, Place.current, htrail]
    rfl
  · rw [Place.below?, Place.below?, secondLine?_append hbreak (.inl ha)]

/-- Whole lines in front of a source make no difference to the rows that a report shows, if a line
ends in the source before the place and the line number is beyond all the lines that end before it.
Text behind the source makes no difference if two lines end in the source from the place on. -/
theorem context_of_neighbours (kind message before after : String) (position line : UInt64)
    (colour : Bool) (h : before.utf8ByteSize = position.toNat) :
    let r : Report := ⟨kind, message, position, line, some (before ++ after)⟩
    let rows := context colour line.toNat ⟨before.toList.reverse, after.toList⟩
    (r.text colour).toList = r.header colour ++ r.location colour ++ rows ∧
    (∀ (front : String) (shifted : UInt64), (front = "" ∨ ∃ lines, front = lines ++ "\n") →
      '\n' ∈ before.toList → (front ++ before).toList.count '\n' < line.toNat →
      front.utf8ByteSize + position.toNat = shifted.toNat →
      let r' : Report := ⟨kind, message, shifted, line, some (front ++ (before ++ after))⟩
      (r'.text colour).toList = r'.header colour ++ r'.location colour ++ rows) ∧
    (∀ back : String, 2 ≤ after.toList.count '\n' →
      let r' : Report := ⟨kind, message, position, line, some (before ++ after ++ back)⟩
      r'.text colour = r.text colour) := by
  intro r rows
  have hrows : r.render colour = r.header colour ++ r.location colour ++ rows :=
    render_of_append rfl h colour
  refine ⟨?_, ?_, ?_⟩
  · rw [toList_text, hrows]
  · intro front shifted hfront hbreak hline hshifted r'
    have hsource : r'.source? = some (front ++ before ++ after) :=
      congrArg some (String.append_assoc ..).symm
    have hsize : (front ++ before).utf8ByteSize = shifted.toNat := by
      rw [String.utf8ByteSize_append, h, hshifted]
    have hhead : ∀ c, front.toList.reverse.head? = some c → c = '\n' := by
      rcases hfront with rfl | ⟨lines, rfl⟩
      · simp
      · simp [eq_comm]
    have hcount : (before.toList.reverse ++ front.toList.reverse).count '\n' < line.toNat := by
      rwa [← List.reverse_append, ← String.toList_append, List.count_reverse]
    rw [toList_text, render_of_append hsource hsize, String.toList_append, List.reverse_append,
      context_append_before (List.mem_reverse.2 hbreak) hhead hcount]
  · intro back hcount r'
    have hsource : r'.source? = some (before ++ (after ++ back)) :=
      congrArg some (String.append_assoc ..)
    refine congrArg String.ofList ?_
    rw [render_of_append hsource h, String.toList_append, context_append_after line.toNat hcount,
      hrows]
    rfl

/-- A place on the second line becomes one on the third, and the last line is no neighbour. -/
theorem context_of_neighbours_third_line :
    let r : Report := ⟨"Error", "bad", 4, 3, some ("a\né" ++ "c\n\nd")⟩
    let r' : Report := ⟨"Error", "bad", 6, 3, some ("x\n" ++ ("a\né" ++ "c\n\nd"))⟩
    let rows := "  2 a\n  3 éc\n     ^\n  4 \n".toList
    "a\né".utf8ByteSize = (4 : UInt64).toNat ∧ '\n' ∈ "a\né".toList ∧
      ("x\n" ++ "a\né").toList.count '\n' < (3 : UInt64).toNat ∧
      "x\n".utf8ByteSize + (4 : UInt64).toNat = (6 : UInt64).toNat ∧
      2 ≤ "c\n\nd".toList.count '\n' ∧
      (r.text false).toList = r.header false ++ r.location false ++ rows ∧
      (r'.text false).toList = r'.header false ++ r'.location false ++ rows ∧
      (⟨"Error", "bad", 4, 3, some ("a\né" ++ "c\n\nd" ++ "e")⟩ : Report).text false =
        r.text false := by
  intro r r' rows
  have h : "a\né".utf8ByteSize = (4 : UInt64).toNat := by decide
  have hbreak : '\n' ∈ "a\né".toList := by decide
  have hline : ("x\n" ++ "a\né").toList.count '\n' < (3 : UInt64).toNat := by decide
  have hshifted : "x\n".utf8ByteSize + (4 : UInt64).toNat = (6 : UInt64).toNat := by decide
  have hcount : 2 ≤ "c\n\nd".toList.count '\n' := by decide
  have hrows :
      context false (3 : UInt64).toNat ⟨"a\né".toList.reverse, "c\n\nd".toList⟩ = rows := by
    decide +kernel
  obtain ⟨hself, hfront, hback⟩ :=
    context_of_neighbours "Error" "bad" "a\né" "c\n\nd" 4 3 false h
  rw [hrows] at hself hfront
  exact ⟨h, hbreak, hline, hshifted, hcount, hself,
    hfront "x\n" 6 (.inr ⟨"x", rfl⟩) hbreak hline hshifted, hback "e" hcount⟩

end Report
end Lexeme

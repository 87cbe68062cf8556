import Mathlib.Data.List.Basic

/-!
# Lines of a text

A text is cut into lines at its line feeds, and where texts are put together with a line feed in
between, their lines come after each other (`lines_append_lineFeed`).

Texts without line feeds are put on lines of their own in two ways: line feeds stand
between them (`lines_intercalate`), or one ends each of them (`lines_join`).  Either way
the lines give the texts back, in their order.
-/

namespace FreightPromotion.Text

/-- The pieces of a text between its line feeds. -/
def lines (text : String) : List String :=
  (text.toList.splitOn '\n').map String.ofList

theorem lines_append_lineFeed (first second : String) :
    lines (first ++ "\n" ++ second) = lines first ++ lines second := by
  have htext : (first ++ "\n" ++ second).toList = first.toList ++ '\n' :: second.toList := by
    simp
  rw [lines, htext, List.splitOn_append_cons_self, List.map_append]
  rfl

/-- Nothing comes after a line feed at the end. -/
theorem lines_append_end (text : String) : lines (text ++ "\n") = lines text ++ [""] := by
  have hlines := lines_append_lineFeed text ""
  rw [String.append_empty] at hlines
  exact hlines

theorem lines_of_unbroken {text : String} (hunbroken : '\n' ∉ text.toList) :
    lines text = [text] := by
  rw [lines, List.splitOn_eq_singleton hunbroken]
  simp

theorem lineFeed_notMem_of_mem_splitOn {text piece : List Char}
    (hpiece : piece ∈ text.splitOn '\n') : '\n' ∉ piece := by
  induction text generalizing piece with
  | nil =>
      obtain rfl : piece = [] := by simpa [List.splitOn_eq_singleton] using hpiece
      exact List.not_mem_nil
  | cons character text ih =>
      rw [List.splitOn_cons_eq_if_modifyHead] at hpiece
      split_ifs at hpiece with hlineFeed
      · rcases List.mem_cons.mp hpiece with rfl | hlater
        · exact List.not_mem_nil
        · exact ih hlater
      · -- The character is added to the first piece of what comes after it.
        have hnonempty : text.splitOn '\n' ≠ [] := by
          rw [List.splitOn_eq_splitOnP]
          exact List.splitOnP_ne_nil _ _
        obtain ⟨first, pieces, hsplit⟩ := List.exists_cons_of_ne_nil hnonempty
        rw [hsplit] at hpiece ih
        rcases List.mem_cons.mp hpiece with rfl | hlater
        · rw [List.mem_cons, not_or]
          exact ⟨fun hsame => hlineFeed (beq_iff_eq.mpr hsame.symm), ih List.mem_cons_self⟩
        · exact ih (List.mem_cons_of_mem _ hlater)

theorem lineFeed_notMem_of_mem_lines {text line : String} (hline : line ∈ lines text) :
    '\n' ∉ line.toList := by
  obtain ⟨piece, hpiece, rfl⟩ := List.mem_map.mp hline
  rw [String.toList_ofList]
  exact lineFeed_notMem_of_mem_splitOn hpiece

/-! ## Texts that are ended by line feeds -/

/-- The last line feed has nothing after it. -/
theorem lines_ended (texts : List String) :
    lines (String.join (texts.map (· ++ "\n"))) = texts.flatMap lines ++ [""] := by
  induction texts with
  | nil => rfl
  | cons text texts ih =>
      rw [List.map_cons, String.join_cons, lines_append_lineFeed, ih, List.flatMap_cons,
        List.append_assoc]

theorem count_lineFeed_ended (texts : List String) :
    (String.join (texts.map (· ++ "\n"))).toList.count '\n' =
      texts.length + (String.join texts).toList.count '\n' := by
  induction texts with
  | nil => rfl
  | cons text texts ih =>
      simp only [List.map_cons, String.join_cons, String.toList_append, List.count_append, ih,
        List.length_cons, show "\n".toList.count '\n' = 1 from rfl]
      omega

/-! ## Texts without line feeds -/

theorem count_lineFeed_join_eq_zero_iff {texts : List String} :
    (String.join texts).toList.count '\n' = 0 ↔ ∀ text ∈ texts, '\n' ∉ text.toList := by
  simp [List.count_eq_zero, String.toList_join]

section Lines

variable {texts : List String} (hunbroken : ∀ text ∈ texts, '\n' ∉ text.toList)

include hunbroken

theorem lines_intercalate (hnonempty : texts ≠ []) : lines ("\n".intercalate texts) = texts := by
  have hpieces : ∀ piece ∈ texts.map String.toList, '\n' ∉ piece := by
    simpa [List.forall_mem_map] using hunbroken
  rw [lines, String.toList_intercalate, show "\n".toList = ['\n'] from rfl,
    List.splitOn_intercalate '\n' hpieces (by simpa using hnonempty), List.map_map]
  simp [Function.comp_def]

theorem lines_join : lines (String.join (texts.map (· ++ "\n"))) = texts ++ [""] := by
  have hlines : texts.flatMap lines = texts.flatMap fun text => [text] :=
    List.flatMap_congr fun text htext => lines_of_unbroken (hunbroken text htext)
  rw [lines_ended, hlines, List.flatMap_singleton']

theorem count_lineFeed_join :
    (String.join (texts.map (· ++ "\n"))).toList.count '\n' = texts.length := by
  rw [count_lineFeed_ended, count_lineFeed_join_eq_zero_iff.mpr hunbroken, Nat.add_zero]

end Lines

end FreightPromotion.Text

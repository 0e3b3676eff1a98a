/-
# Texts made of lines

What the library prints is made of lines, each ended by a line feed.  Such a text is
read line by line (`linesOf`), and its lines are found again in every longer text
that they begin at the start of a line (`IsLines.mem_linesOf`).
-/

namespace Labyrinth

/-- The lines of a text: a line is ended by a line feed, and what stands behind the
last line feed is no line. -/
def linesOf (text : String) : List String :=
  (text.toList.splitOn '\n').dropLast.map String.ofList

/-- Lines without line feeds inside are found again, and the empty text behind the last. -/
theorem splitOn_flatMap_newline (ls : List (List Char)) (h : ∀ l ∈ ls, '\n' ∉ l) :
    (ls.flatMap (· ++ ['\n'])).splitOn '\n' = ls ++ [[]] := by
  induction ls with
  | nil => simp
  | cons l ls ih =>
    rw [List.forall_mem_cons] at h
    rw [List.flatMap_cons, List.append_assoc, List.singleton_append,
      List.splitOn_append_cons_self_of_not_mem h.1, ih h.2, List.cons_append]

/-- The lines that a text was put together from. -/
theorem linesOf_ofList_flatMap (ls : List (List Char)) (h : ∀ l ∈ ls, '\n' ∉ l) :
    linesOf (String.ofList (ls.flatMap (· ++ ['\n']))) = ls.map String.ofList := by
  rw [linesOf, String.toList_ofList, splitOn_flatMap_newline ls h, List.dropLast_concat]

/-- A text that is put together from parts has a separator before each part but the
first. -/
theorem intercalate_cons (s t : String) (ts : List String) :
    s.intercalate (t :: ts) = t ++ String.join (ts.map (s ++ ·)) := by
  induction ts generalizing t with
  | nil => simp
  | cons u ts ih =>
    rw [String.intercalate_cons_cons, ih, List.map_cons, String.join_cons, String.append_assoc,
      String.append_assoc]

/-- The text is empty or its last line is ended. -/
def IsLines (text : String) : Prop := text = "" ∨ ∃ before, text = before ++ "\n"

/-- Nothing is made of no lines. -/
theorem isLines_empty : IsLines "" := Or.inl rfl

/-- A line feed ends the last line. -/
theorem isLines_append_newline (text : String) : IsLines (text ++ "\n") := Or.inr ⟨text, rfl⟩

namespace IsLines

variable {before text : String}

/-- Lines go on with lines. -/
theorem append (h : IsLines before) (h' : IsLines text) : IsLines (before ++ text) := by
  rcases h' with rfl | ⟨t, rfl⟩
  · rwa [String.append_empty]
  · rw [← String.append_assoc]
    exact isLines_append_newline _

/-- Any number of them can be put together. -/
theorem join {texts : List String} (h : ∀ t ∈ texts, IsLines t) : IsLines (String.join texts) := by
  induction texts with
  | nil => exact isLines_empty
  | cons t texts ih =>
    rw [List.forall_mem_cons] at h
    rw [String.join_cons]
    exact h.1.append (ih h.2)

/-- **A line that begins behind whole lines is a line of the text.** -/
theorem mem_linesOf (h : IsLines before) (ht : '\n' ∉ text.toList) (after : String) :
    text ∈ linesOf (before ++ (text ++ "\n") ++ after) := by
  have hnewline : "\n".toList = ['\n'] := rfl
  have hline : (text.toList ++ '\n' :: after.toList).splitOn '\n' =
      text.toList :: after.toList.splitOn '\n' :=
    List.splitOn_append_cons_self_of_not_mem ht _
  have hsplit : ∃ earlier, (before ++ (text ++ "\n") ++ after).toList.splitOn '\n' =
      earlier ++ text.toList :: after.toList.splitOn '\n' := by
    rcases h with rfl | ⟨b, rfl⟩
    · exact ⟨[], by simpa [hnewline] using hline⟩
    · refine ⟨b.toList.splitOn '\n', ?_⟩
      rw [← hline, ← List.splitOn_append_cons_self]
      simp [hnewline]
  obtain ⟨earlier, hsplit⟩ := hsplit
  rw [linesOf, hsplit, List.dropLast_append_of_ne_nil (List.cons_ne_nil _ _),
    List.dropLast_cons_of_ne_nil (List.splitOn_ne_nil _ _)]
  simp

end IsLines

end Labyrinth

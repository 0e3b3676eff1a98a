/-
# The exit status and what is reported

Whether there is a puzzle depends on the sides alone (`generate_cases`).  If there
is none, the answer is an error of one line.  Otherwise nothing on the way to the
answer is refused, and the answer has the status and the closing text of the report
that the options call for, whether it is an animation, a drawing or a report in
JSON (`exists_play_prepared`).  So the status tells how the program ends on
the puzzle of the seed, and the fields of the report are there exactly if they were
asked for (`status_of_run`).  What is printed of a report is read back to it, and it is
the text of no other value (`Answer.Prints`).
-/

import Labyrinth.Proofs.CommandLine.Animation
import Labyrinth.Proofs.Drawing
import Labyrinth.Proofs.Json.RoundTrip

namespace Labyrinth

/-! ## Errors take one line -/

/-- A number takes one line. -/
theorem newline_notMem_toString (n : Nat) : '\n' ∉ (toString n).toList := by
  rw [Nat.toString_eq_repr, Nat.toList_repr]
  intro h
  exact absurd (Nat.isDigit_of_mem_toDigits (by decide) (by decide) h) (by decide)

/-- What is made of two such texts takes one line. -/
theorem newline_notMem_append {s t : String} (hs : '\n' ∉ s.toList) (ht : '\n' ∉ t.toList) :
    '\n' ∉ (s ++ t).toList := by
  rw [String.toList_append, List.mem_append, not_or]
  exact ⟨hs, ht⟩

/-- The field of an object with a name. -/
def Json.field? (name : String) : Json → Option Json
  | .obj fields => fields.lookup name
  | _ => none

namespace CommandLine

variable {args args' : List String} {o o' : Options} {seed : String} {p : Puzzle}

/-! ## The fields of a report -/

/-- The fields that a report may lack are there if there is something in them. -/
theorem Report.field?_toJson (r : Report) :
    r.toJson.field? "result" = r.outcome?.map Outcome.toJson ∧
      r.toJson.field? "message" = r.message?.map .str ∧
      r.toJson.field? "solution" = r.solution?.map Direction.listToJson := by
  rw [toJson, message?]
  cases r.outcome? with
  | none =>
    cases r.solution? with
    | none | some => exact ⟨rfl, rfl, rfl⟩
  | some =>
    cases r.solution? with
    | none | some => exact ⟨rfl, rfl, rfl⟩

/-- The fields that are there only if they were asked for. -/
theorem field?_report (o : Options) {ds : List Direction} (hds : p.solution? = some ds)
    (seed : String) :
    let r := execute p.maze p.start p.goal o.program
    let report := (o.report seed p).toJson
    report.field? "result" = (if o.program = [] then none else some r.toJson) ∧
      report.field? "message" =
        (if o.program = [] then none else some (.str (r.message o.program))) ∧
      report.field? "solution" =
        if o.has .solve then some (Direction.listToJson ds) else none := by
  intro r report
  obtain ⟨hresult, hmessage, hsolution⟩ := (o.report seed p).field?_toJson
  refine ⟨hresult.trans ?_, hmessage.trans ?_, hsolution.trans ?_⟩
  · rw [Options.report, apply_ite (Option.map Outcome.toJson)]
    rfl
  · rw [Report.message?, Options.report, apply_ite (Option.map _), apply_ite (Option.map _)]
    rfl
  · rw [Options.report, hds, apply_ite (Option.map Direction.listToJson)]
    rfl

/-! ## Printed reports -/

/-- The answer prints a JSON value: all that it prints is the text of the value and a
line feed.  A reader gets the value back, and there is no other value with this text. -/
structure Answer.Prints (a : Answer) (report : Json) : Prop where
  output_eq : a.output = line report.pretty
  read?_output : Json.read? a.output = some report
  eq_of_output_eq : ∀ j : Json, a.output = line j.pretty → j = report

/-- A line feed behind the text of a value does not disturb its reader. -/
theorem read?_line_pretty (j : Json) : Json.read? (line j.pretty) = some j := by
  have hnewline : ∀ b ∈ "\n".toList, Json.isBlank b = true := List.forall_mem_singleton.2 rfl
  exact Json.read?_render Json.Layout.isBlank_pretty 0 j hnewline

/-- **What prints the text of a value prints this value and no other.** -/
theorem Answer.prints_of_output_eq {a : Answer} {report : Json}
    (h : a.output = line report.pretty) : a.Prints report where
  output_eq := h
  read?_output := h ▸ read?_line_pretty report
  eq_of_output_eq j hj := by
    have hread := read?_line_pretty j
    rw [← hj, h, read?_line_pretty] at hread
    exact (Option.some.inj hread).symm

/-! ## Answers -/

/-- Both sides are at least four, and every cell has a position. -/
def Options.SidesFit (o : Options) : Prop :=
  (4 ≤ o.width ∧ o.width ≤ 2147483647) ∧ (4 ≤ o.height ∧ o.height ≤ 2147483647)

/-- A line is made of lines. -/
theorem isLines_line (text : String) : IsLines (line text) := isLines_append_newline text

/-- So is a frame. -/
theorem isLines_stepFrame (p : Puzzle) (program : List Direction) (move : Direction × Nat) :
    IsLines (stepFrame p program move) :=
  ((isLines_append_newline "").append (isLines_line _)).append (Scene.isLines_render _)

/-- **Playing gives what the report says.**  However the program is shown, the answer
has the status and the closing text of the report; what stands before it is made of
whole lines, and with a report in JSON nothing does. -/
theorem exists_play_prepared (hexclusive : o.has .animate = true → o.has .json = false)
    (seed : String) (p : Puzzle) :
    ∃ opening frames, play o (prepared o seed p) =
        .ok ⟨(o.report seed p).status, opening, frames, (o.report seed p).closing o, none⟩ ∧
      (o.has .json = true → opening = "" ∧ frames = []) ∧
      IsLines (opening ++ String.join frames) := by
  have hstill : ∀ (json : Bool) (text : String), IsLines text →
      IsLines ((if json then "" else text) ++ String.join []) := by
    intro json text htext
    rw [String.join_nil, String.append_empty]
    cases json with
    | true => exact isLines_empty
    | false => exact htext
  by_cases hprogram : o.program = []
  · have hplay := play_prepared_of_nil hprogram seed p
    have hreport : Report.ofSession o (prepared o seed p) none = o.report seed p :=
      Report.ofSession_of_kept ⟨rfl, rfl, rfl, rfl, rfl⟩ (by rw [Options.report, if_pos hprogram])
    rw [still, hreport] at hplay
    exact ⟨_, _, hplay, fun hjson => ⟨if_pos hjson, rfl⟩,
      hstill _ _ ((isLines_line _).append (Scene.isLines_render _))⟩
  · cases hanimate : o.has .animate with
    | true =>
      have hplay := play_prepared hprogram seed p
      obtain ⟨hanimated, -⟩ := animated_prepared hprogram seed p
      rw [hanimate, if_pos rfl, hanimated] at hplay
      refine ⟨_, _, hplay, fun hjson => ?_, ?_⟩
      · rw [hexclusive hanimate] at hjson
        cases hjson
      · refine ((isLines_line _).append (Scene.isLines_render _)).append (IsLines.join ?_)
        intro t ht
        obtain ⟨move, -, rfl⟩ := List.mem_map.1 ht
        exact isLines_stepFrame _ _ _
    | false =>
      obtain ⟨last, hended, hplay⟩ := exists_play_prepared_of_still hprogram hanimate seed p
      rw [still_of_ended hended hprogram] at hplay
      exact ⟨_, _, hplay, fun hjson => ⟨if_pos hjson, rfl⟩,
        hstill _ _ ((isLines_line _).append (Scene.isLines_render _))⟩

/-- **With a puzzle there is no error**, whether its seed was given or invented. -/
theorem exists_answer_of_generate {invented : String} (hargs : parse? args = some (.run o))
    (hseed : o.seed?.getD invented = seed)
    (hp : Puzzle.generate o.width o.height seed = .ok p) :
    ∃ opening frames, answer args invented =
        ⟨(o.report seed p).status, opening, frames, (o.report seed p).closing o, none⟩ ∧
      (o.has .json = true → opening = "" ∧ frames = []) ∧
      IsLines (opening ++ String.join frames) := by
  obtain ⟨opening, frames, hplay, hopening⟩ :=
    exists_play_prepared (has_json_eq_false hargs) seed p
  exact ⟨opening, frames, answer_of_run hargs ((run_of_generate_ok hseed hp).trans hplay), hopening⟩

/-- **A report in JSON is all that is printed.** -/
theorem prints_report {invented : String} (hargs : parse? args = some (.run o))
    (hseed : o.seed?.getD invented = seed) (hp : Puzzle.generate o.width o.height seed = .ok p)
    (hjson : o.has .json = true) : (answer args invented).Prints (o.report seed p).toJson := by
  obtain ⟨opening, frames, hanswer, hnothing, -⟩ := exists_answer_of_generate hargs hseed hp
  obtain ⟨rfl, rfl⟩ := hnothing hjson
  refine Answer.prints_of_output_eq ?_
  rw [hanswer, Answer.output, String.join_nil, String.append_empty, String.empty_append,
    Report.closing, if_pos hjson]

end CommandLine
end Labyrinth

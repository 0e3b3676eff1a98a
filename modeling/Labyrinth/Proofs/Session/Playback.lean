/-
# Playing computes what executing computes

A program that is played in a session runs step by step, with other actions in
between, and can be played out at any moment.  All the while the session shows an
execution that would still come to the outcome of `execute`
(`Session.Underway`), and every way to its end leaves this outcome on display
(`Session.Ended`).  Of the actions in between those that are refused change
nothing, and how far the program has got is the number of steps
(`Session.Underway.played`).
-/

import Labyrinth.Proofs.Replay
import Labyrinth.Proofs.Session.Coherence

namespace Labyrinth
namespace Session

/-- The sessions have the same seed, puzzle and program, with the same edits to
undo and redo. -/
structure Kept (s s' : Session) : Prop where
  seed_eq : s'.seed = s.seed
  width_eq : s'.width = s.width
  height_eq : s'.height = s.height
  puzzle_eq : s'.puzzle = s.puzzle
  program_eq : s'.program = s.program

/-- The program of `s` is running: `n` moves were made, and it will end with
`r`. -/
structure Underway (s : Session) (r : Outcome) (n : Nat) (s' : Session) : Prop where
  kept : s.Kept s'
  shows : ∃ e, s'.Shows e ∧ e.next = n ∧ (e.run s.puzzle.maze).1 = r

/-- The program of `s` has ended with `r`, and this is what is shown. -/
structure Ended (s : Session) (r : Outcome) (s' : Session) : Prop where
  kept : s.Kept s'
  path_eq : s'.path = r.path
  back?_eq : r.path.back? = some s'.character
  phase_eq : s'.phase =
    match r.ending with
    | .reached => .solved
    | .blocked _ => .blocked
    | .exhausted => .idle

variable {s s' last : Session} {e : Execution} {r o : Outcome} {n : Nat}

/-! ## One step -/

/-- Following an execution keeps the puzzle and the program. -/
theorem Kept.follow (h : s.Kept s') (e : Execution) : s.Kept (s'.follow e) :=
  ⟨h.seed_eq, h.width_eq, h.height_eq, h.puzzle_eq, h.program_eq⟩

/-- A session that follows a settled execution has ended. -/
theorem ended_of_settled (h : s.Kept s') (hsettled : e.Settled r) : s.Ended r (s'.follow e) := by
  refine ⟨h.follow e, hsettled.path_eq.symm, ?_, ?_⟩
  · rw [hsettled.path_eq]
    exact hsettled.back?_eq
  · rw [phase_follow_of_some hsettled.result_eq]
    cases r.ending <;> rfl

/-- A session that has ended does not run any more. -/
theorem Ended.isRunning_eq_false (h : s.Ended r s') : s'.isRunning = false := by
  rw [isRunning, h.phase_eq]
  cases r.ending <;> rfl

/-- **A step makes one more move, or the program ends as it should.** -/
theorem Underway.step (h : s.Underway r n s') :
    (∃ k p next, s'.step = (some (.moved k p), next) ∧ s.Underway r (n + 1) next) ∨
      ∃ next, s'.step = (some (.finished r), next) ∧ s.Ended r next := by
  obtain ⟨e, hshows, hnext, hrun⟩ := h.shows
  have hstep := step_of_running? hshows.running?_eq
  rw [← h.kept.puzzle_eq] at hrun
  match hreport : e.step s'.puzzle.maze with
  | (.moved k p, e') =>
    rw [hreport] at hstep
    obtain ⟨d, -, -, -, -, -, -, -, -, rfl⟩ := Execution.exists_of_step_moved hreport
    rw [Execution.run_of_step_moved hreport, h.kept.puzzle_eq] at hrun
    exact Or.inl ⟨k, p, _, hstep, h.kept.follow _, _, hshows.follow_moved hreport,
      congrArg (· + 1) hnext, hrun⟩
  | (.finished o, e') =>
    rw [hreport] at hstep
    rw [Execution.run_of_step_finished hreport] at hrun
    obtain rfl : o = r := hrun
    exact Or.inr ⟨_, hstep, ended_of_settled h.kept (hshows.settled hreport)⟩

/-- After a step that moves a session is underway by one step more. -/
theorem Underway.of_step_moved (h : s.Underway r n s') {k : Nat} {p : Position}
    (hstep : s'.step = (some (.moved k p), last)) : s.Underway r (n + 1) last := by
  rcases h.step with ⟨k', p', next, hstep', hnext⟩ | ⟨next, hstep', -⟩
  · rw [hstep] at hstep'
    cases hstep'
    exact hnext
  · rw [hstep] at hstep'
    cases hstep'

/-- After a step that finishes it has ended, with the outcome that was expected. -/
theorem Underway.of_step_finished (h : s.Underway r n s')
    (hstep : s'.step = (some (.finished o), last)) : o = r ∧ s.Ended r last := by
  rcases h.step with ⟨k, p, next, hstep', -⟩ | ⟨next, hstep', hended⟩
  · rw [hstep] at hstep'
    cases hstep'
  · rw [hstep] at hstep'
    cases hstep'
    exact ⟨rfl, hended⟩

/-- The path of a session that is underway begins the path of the outcome. -/
theorem Underway.path_prefix (h : s.Underway r n s') : s'.path.toList <+: r.path.toList := by
  obtain ⟨e, hshows, -, rfl⟩ := h.shows
  rw [← hshows.path_eq]
  exact e.path_prefix_run s.puzzle.maze hshows.unfinished

/-- A session that is underway runs. -/
theorem Underway.isRunning_eq_true (h : s.Underway r n s') : s'.isRunning = true := by
  obtain ⟨e, hshows, -⟩ := h.shows
  exact hshows.running

/-- A session that is underway has moves to run. -/
theorem Underway.lt_length (h : s.Underway r n s') : n < s.program.length := by
  obtain ⟨e, hshows, rfl, -⟩ := h.shows
  rw [← h.kept.program_eq]
  exact hshows.next_lt

/-- **Played out from wherever it has got, the program ends as it should.** -/
theorem Underway.playOut (h : s.Underway r n s') :
    ∃ last, s'.playOut = (some r, last) ∧ s.Ended r last := by
  obtain ⟨e, hshows, -⟩ := h.shows
  obtain ⟨s₁, o, ⟨n', hn'⟩, hstep, hout⟩ :=
    playOut_induction (P := fun s₁ => ∃ n, s.Underway r n s₁)
      (fun ⟨n, hn⟩ hstep => ⟨n + 1, hn.of_step_moved hstep⟩)
      (Option.isSome_of_eq_some hshows.running?_eq) ⟨n, h⟩
  obtain ⟨rfl, hended⟩ := hn'.of_step_finished hstep
  exact ⟨_, Prod.ext hout rfl, hended⟩

/-! ## Any number of steps, with refused actions in between -/

/-- The actions are steps, apart from those that were refused because the program
was running. -/
def OnlySteps (actions : List Action) (responses : List Response) : Prop :=
  ∀ x ∈ actions.zip responses, x.1 = .step ∨ x.2 = .refused .running

/-- The first action is a step or is refused, and so it goes on. -/
theorem OnlySteps.of_cons {a : Action} {actions : List Action}
    (h : OnlySteps (a :: actions) (replay perform s (a :: actions)).1) :
    (a = .step ∨ (s.perform a).1 = .refused .running) ∧
      OnlySteps actions (replay perform (s.perform a).2 actions).1 :=
  List.forall_mem_cons.1 h

/-- Once the program has ended, steps do nothing. -/
theorem Ended.after_actions (h : s.Ended r s') (actions : List Action)
    (hsteps : OnlySteps actions (replay perform s' actions).1) :
    (replay perform s' actions).2 = s' ∧
      ∀ o, .stepped (some (.finished o)) ∉ (replay perform s' actions).1 := by
  induction actions with
  | nil => exact ⟨rfl, fun _ => List.not_mem_nil⟩
  | cons a actions ih =>
    obtain ⟨ha, hrest⟩ := hsteps.of_cons
    have hnothing : (s'.perform a).2 = s' ∧
        ∀ o, .stepped (some (.finished o)) ≠ (s'.perform a).1 := by
      rcases ha with rfl | ha
      · rw [perform, step_of_not_isRunning h.isRunning_eq_false]
        exact ⟨rfl, by rintro o ⟨⟩⟩
      · rw [ha]
        exact ⟨perform_refused ha, by rintro o ⟨⟩⟩
    rw [hnothing.1] at hrest
    obtain ⟨hlast, hnone⟩ := ih hrest
    rw [replay_cons, hnothing.1]
    exact ⟨hlast, fun o => List.not_mem_cons_of_ne_of_not_mem (hnothing.2 o) (hnone o)⟩

/-- What `n` steps lead to: the program is still under way with `n` moves made, or
a step reported the outcome and the program has ended. -/
inductive Played (s : Session) (r : Outcome) (n : Nat) (responses : List Response)
    (last : Session) : Prop
  | underway : (∀ o, .stepped (some (.finished o)) ∉ responses) → s.Underway r n last →
      Played s r n responses last
  | ended : .stepped (some (.finished r)) ∈ responses →
      (∀ o, .stepped (some (.finished o)) ∈ responses → o = r) → s.Ended r last →
      Played s r n responses last

/-- A response before that does not report the end changes nothing. -/
theorem Played.cons {responses : List Response} (h : s.Played r n responses last) {x : Response}
    (hx : ∀ o, .stepped (some (.finished o)) ≠ x) : s.Played r n (x :: responses) last := by
  cases h with
  | underway hnone hunderway =>
    exact .underway (fun o => List.not_mem_cons_of_ne_of_not_mem (hx o) (hnone o)) hunderway
  | ended hmem hsame hended =>
    refine .ended (List.mem_cons_of_mem _ hmem) (fun o ho => ?_) hended
    rcases List.mem_cons.1 ho with ho | ho
    · exact absurd ho (hx o)
    · exact hsame o ho

/-- **Only the steps count.** -/
theorem Underway.played (h : s.Underway r n s') (actions : List Action)
    (hsteps : OnlySteps actions (replay perform s' actions).1) :
    s.Played r (n + actions.count .step) (replay perform s' actions).1
      (replay perform s' actions).2 := by
  -- a step moves on to another session with one move more, so both are generalized
  induction actions generalizing n s' with
  | nil => exact .underway (fun _ => List.not_mem_nil) h
  | cons a actions ih =>
    obtain ⟨ha, hrest⟩ := hsteps.of_cons
    rw [replay_cons]
    by_cases hstep : a = .step
    · subst hstep
      rcases h.step with ⟨k, p, next, hmoved, hnext⟩ | ⟨next, hfinished, hended⟩
      · have hperform : s'.perform .step = (.stepped (some (.moved k p)), next) := by
          rw [perform, hmoved]
        rw [hperform] at hrest ⊢
        rw [List.count_cons_self, Nat.add_comm (actions.count _), ← Nat.add_assoc]
        exact (ih hnext hrest).cons (by rintro o ⟨⟩)
      · have hperform : s'.perform .step = (.stepped (some (.finished r)), next) := by
          rw [perform, hfinished]
        rw [hperform] at hrest ⊢
        obtain ⟨hlast, hnone⟩ := hended.after_actions actions hrest
        rw [hlast]
        refine .ended List.mem_cons_self (fun o ho => ?_) hended
        rcases List.mem_cons.1 ho with ho | ho
        · cases ho
          rfl
        · exact absurd ho (hnone o)
    · have hrefused := ha.resolve_left hstep
      rw [perform_refused hrefused] at hrest ⊢
      rw [List.count_cons_of_ne hstep, hrefused]
      exact (ih h hrest).cons (by rintro o ⟨⟩)

/-- A session that is started is underway to the outcome of executing its program. -/
theorem underway_started (h : s.program.isEmpty = false) :
    s.Underway (execute s.puzzle.maze s.puzzle.start s.puzzle.goal s.program.blocks) 0
      s.started :=
  ⟨⟨rfl, rfl, rfl, rfl, rfl⟩, _, shows_started h, rfl, rfl⟩

/-- **Playing computes what executing computes.**  A session that is not running
and has blocks begins to play them, whatever execution it still holds.  Let then
steps be made, with other actions in between that are refused because the program
is running.  The path that is shown is always the beginning of the path of
`execute`.  As long as no step has reported the end, the program is running,
fewer steps were made than there are blocks, the guarded actions are refused and
change nothing, and playing out would report the outcome of `execute` and leave
it on display.  If a step has reported the end, it reported this outcome, which
is then on display.  On display are the path of the outcome, the character at its
end and the phase that it calls for; the seed, the puzzle and the program with
all its edits are those from before. -/
theorem play_computes_execute (s : Session) (hidle : s.isRunning = false)
    (hblocks : s.program.isEmpty = false) :
    ∃ s₀, s.perform .play = (.done, s₀) ∧ ∀ actions : List Action,
      let r := execute s.puzzle.maze s.puzzle.start s.puzzle.goal s.program.blocks
      let played := replay perform s₀ actions
      OnlySteps actions played.1 →
        played.2.path.toList <+: r.path.toList ∧
        (((∀ o, .stepped (some (.finished o)) ∉ played.1) ∧
            played.2.isRunning = true ∧ actions.count .step < s.program.length ∧
            (∀ a : Action, a.isGuarded → played.2.perform a = (.refused .running, played.2)) ∧
            ∃ last, played.2.perform .playOut = (.ended (some r), last) ∧ s.Ended r last) ∨
          (.stepped (some (.finished r)) ∈ played.1 ∧
            (∀ o, .stepped (some (.finished o)) ∈ played.1 → o = r) ∧ s.Ended r played.2)) := by
  refine ⟨s.started, perform_play hidle hblocks, ?_⟩
  intro actions r played hsteps
  cases (underway_started hblocks).played actions hsteps with
  | underway hnone hunderway =>
    have hrunning := hunderway.isRunning_eq_true
    have hcount := hunderway.lt_length
    rw [Nat.zero_add] at hcount
    obtain ⟨last, hout, hended⟩ := hunderway.playOut
    have hperform : played.2.perform .playOut = (.ended (some r), last) := by
      rw [perform, hout]
    exact ⟨hunderway.path_prefix, Or.inl ⟨hnone, hrunning, hcount,
      fun a ha => perform_of_isRunning hrunning ha, last, hperform, hended⟩⟩
  | ended hmem hsame hended =>
    have hpath : played.2.path = r.path := hended.path_eq
    exact ⟨⟨[], by rw [hpath, List.append_nil]⟩, Or.inr ⟨hmem, hsame, hended⟩⟩

/-- In a game with two blocks two steps end the program as `execute` does, also
when a block was pushed before them and refused. -/
theorem play_computes_execute_two_blocks :
    ∃ s : Session, s.Reachable ∧ s.isRunning = false ∧ s.program.isEmpty = false ∧
      s.program.blocks = [.down, .right] ∧
      ∃ s₀, s.perform .play = (.done, s₀) ∧
        let r := execute s.puzzle.maze s.puzzle.start s.puzzle.goal [.down, .right]
        let played := replay perform s₀ [.push .up, .step, .step]
        played.1.head? = some (.refused .running) ∧
          .stepped (some (.finished r)) ∈ played.1 ∧ s.Ended r played.2 := by
  obtain ⟨puzzle, hnew⟩ := @exists_reachable_ofPuzzle 5 4 (by decide) (by decide) "maze"
  let s := (((ofPuzzle 5 4 "maze" puzzle).perform (.push .down)).2.perform (.push .right)).2
  have hs : s.Reachable := .performed _ (.performed _ hnew)
  obtain ⟨s₀, hplay, hplayed⟩ := play_computes_execute s rfl rfl
  obtain rfl : _ = s₀ := congrArg Prod.snd hplay
  have hsteps : OnlySteps [.push .up, .step, .step]
      (replay perform (s.perform .play).2 [.push .up, .step, .step]).1 :=
    List.forall_mem_cons.2 ⟨Or.inr rfl, List.forall_mem_cons.2 ⟨Or.inl rfl,
      List.forall_mem_cons.2 ⟨Or.inl rfl, List.forall_mem_nil _⟩⟩⟩
  rcases (hplayed _ hsteps).2 with ⟨-, -, hcount, -⟩ | ⟨hmem, -, hended⟩
  · exact absurd hcount (Nat.lt_irrefl 2)
  · exact ⟨s, hs, rfl, rfl, rfl, _, hplay, rfl, hmem, hended⟩

end Session
end Labyrinth

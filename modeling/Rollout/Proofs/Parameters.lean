import Mathlib.Data.List.Basic
import Rollout.Dispatch
import Rollout.Master.Call

/-!
What a command line tells of its parameters.

Both parameters stand in the line as they are, with one space before each, and nothing marks where
the first one ends. So a space in a parameter reads like the one between them: two payloads that
differ in their parameters only have one line exactly if the words between the two spaces have gone
from one parameter to the other. Without a space in its parameters a line is the only one of its
kind.
-/
namespace Rollout

namespace Text

variable {a a' b b' : List Char} {c : Char}

/-- Of two ways to part a text at a character one is further right. -/
theorem append_cons_eq_append_cons_iff : a ++ c :: b = a' ++ c :: b' ↔
    (a = a' ∧ b = b') ∨ (∃ m, a' = a ++ c :: m ∧ b = m ++ c :: b') ∨
      ∃ m, a = a' ++ c :: m ∧ b' = m ++ c :: b := by
  rw [List.append_eq_append_iff]
  constructor
  -- what one text is longer by is empty or starts with the character
  · rintro (⟨m, rfl, hb⟩ | ⟨m, rfl, hb⟩)
    · cases m with
      | nil =>
        cases hb
        exact .inl ⟨(List.append_nil _).symm, rfl⟩
      | cons d m =>
        cases hb
        exact .inr (.inl ⟨m, rfl, rfl⟩)
    · cases m with
      | nil =>
        cases hb
        exact .inl ⟨List.append_nil _, rfl⟩
      | cons d m =>
        cases hb
        exact .inr (.inr ⟨m, rfl, rfl⟩)
  · rintro (⟨rfl, rfl⟩ | ⟨m, rfl, rfl⟩ | ⟨m, rfl, rfl⟩)
    · exact .inl ⟨[], (List.append_nil _).symm, rfl⟩
    · exact .inl ⟨c :: m, rfl, rfl⟩
    · exact .inr ⟨c :: m, rfl, rfl⟩

end Text

/-! ### Parameters in a line -/

namespace Payload

variable {p q : Payload}

def SameParameters (p q : Payload) : Prop := p.first = q.first ∧ p.second = q.second

/-- The words at the head of the second parameter of `p` end the first one of `q`. -/
def Regroups (p q : Payload) : Prop :=
  ∃ moved : String, q.first = p.first ++ " " ++ moved ∧ p.second = moved ++ " " ++ q.second

/-- A space stands in one of the parameters. -/
def Spaced (p : Payload) : Prop := ' ' ∈ p.first.toList ∨ ' ' ∈ p.second.toList

theorem Regroups.spaced_left (h : p.Regroups q) : p.Spaced := by
  obtain ⟨moved, -, hsecond⟩ := h
  refine .inr ?_
  rw [hsecond]
  simp

theorem Regroups.spaced_right (h : p.Regroups q) : q.Spaced := by
  obtain ⟨moved, hfirst, -⟩ := h
  refine .inl ?_
  rw [hfirst]
  simp

theorem commandLine_eq_commandLine_iff (hinterpreter : p.interpreter = q.interpreter)
    (hscript : p.script = q.script) : p.commandLine = q.commandLine ↔
      p.SameParameters q ∨ p.Regroups q ∨ q.Regroups p := by
  have hline : p.commandLine = q.commandLine ↔
      p.first.toList ++ ' ' :: p.second.toList = q.first.toList ++ ' ' :: q.second.toList := by
    simp [← String.toList_inj, commandLine, hinterpreter, hscript]
  have hregroups {p q : Payload} : p.Regroups q ↔ ∃ m, q.first.toList = p.first.toList ++ ' ' :: m ∧
      p.second.toList = m ++ ' ' :: q.second.toList := by
    simp only [Regroups, ← String.toList_inj]
    constructor
    · rintro ⟨moved, hfirst, hsecond⟩
      exact ⟨moved.toList, by simpa using hfirst, by simpa using hsecond⟩
    · rintro ⟨m, hfirst, hsecond⟩
      exact ⟨String.ofList m, by simpa using hfirst, by simpa using hsecond⟩
  rw [hline, Text.append_cons_eq_append_cons_iff, hregroups, hregroups, SameParameters,
    String.toList_inj, String.toList_inj]

/-- A space in a parameter can be taken for the one between the two. -/
theorem exists_regrouping (h : p.Spaced) : ∃ q : Payload, q.interpreter = p.interpreter ∧
    q.script = p.script ∧ (p.Regroups q ∨ q.Regroups p) ∧ ¬ p.SameParameters q := by
  rcases h with hfirst | hsecond
  · obtain ⟨kept, moved, hsplit⟩ := List.append_of_mem hfirst
    have heq : p.first = String.ofList kept ++ " " ++ String.ofList moved := by
      simp [← String.toList_inj, hsplit]
    refine ⟨{ p with first := String.ofList kept, second := String.ofList moved ++ " " ++ p.second },
      rfl, rfl, .inr ⟨_, heq, rfl⟩, fun hsame => ?_⟩
    have hlength := congrArg (·.toList.length) hsame.1
    simp only [hsplit, String.toList_ofList, List.length_append, List.length_cons] at hlength
    omega
  · obtain ⟨moved, kept, hsplit⟩ := List.append_of_mem hsecond
    have heq : p.second = String.ofList moved ++ " " ++ String.ofList kept := by
      simp [← String.toList_inj, hsplit]
    refine ⟨{ p with first := p.first ++ " " ++ String.ofList moved, second := String.ofList kept },
      rfl, rfl, .inl ⟨_, rfl, heq⟩, fun hsame => ?_⟩
    have hlength := congrArg (·.toList.length) hsame.2
    simp only [hsplit, String.toList_ofList, List.length_append, List.length_cons] at hlength
    omega

end Payload

/-! ### The line that is sent -/

namespace Master

/-- The line that a call has a shell run, if it launches one task. -/
def Call.shellLine? (body : Json) : Option String := do
  let accept ← body.get? "accept"
  let .arr [operation] ← accept.get? "operations" | none
  let launch ← operation.get? "launch"
  let .arr [task] ← launch.get? "task_infos" | none
  let command ← task.get? "command"
  let .bool true ← command.get? "shell" | none
  let .str line ← command.get? "value" | none
  some line

theorem Call.shellLine?_accept (framework : FrameworkId) (offer : OfferId) (task : Task)
    (refusal : Float) :
    shellLine? (accept framework offer task refusal).toJson = some task.command.value := rfl

end Master

namespace Dispatcher

open Master

/-- The line in the body of the call that launches the task for an offer. -/
def shellLine? (d : Dispatcher) (drawn : Nat) (offer : Offer) (framework : FrameworkId)
    (refusal : Float) : Option String :=
  (Call.ofCommand? framework refusal (.launch offer.id (d.buildTask drawn offer))).bind
    fun call => Call.shellLine? call.toJson

theorem shellLine?_eq (d : Dispatcher) (drawn : Nat) (offer : Offer) (framework : FrameworkId)
    (refusal : Float) : d.shellLine? drawn offer framework refusal = some d.payload.commandLine :=
  Call.shellLine?_accept framework offer.id (d.buildTask drawn offer) refusal

/-- The call that launches a task has a line for the shell. If two payloads have one interpreter and
one script, their lines are the same exactly if their parameters are, or some words have gone from
one parameter to the other. So the line of a payload tells its parameters exactly if there is no
space in them. -/
theorem tells_parameters_unless_spaced (d : Dispatcher) (drawn : Nat) (offer : Offer)
    (framework : FrameworkId) (refusal : Float) :
    let line := d.shellLine? drawn offer framework refusal
    line.isSome ∧
    (∀ (d' : Dispatcher) (drawn' : Nat) (offer' : Offer) (framework' : FrameworkId)
        (refusal' : Float), d.payload.interpreter = d'.payload.interpreter →
      d.payload.script = d'.payload.script →
      (line = d'.shellLine? drawn' offer' framework' refusal' ↔
        d.payload.SameParameters d'.payload ∨ d.payload.Regroups d'.payload ∨
          d'.payload.Regroups d.payload)) ∧
    (¬ d.payload.Spaced ↔ ∀ (d' : Dispatcher) (drawn' : Nat) (offer' : Offer)
        (framework' : FrameworkId) (refusal' : Float),
      d.payload.interpreter = d'.payload.interpreter → d.payload.script = d'.payload.script →
      line = d'.shellLine? drawn' offer' framework' refusal' →
      d.payload.SameParameters d'.payload) := by
  intro line
  have hlines (d' : Dispatcher) (drawn' : Nat) (offer' : Offer) (framework' : FrameworkId)
      (refusal' : Float) (hinterpreter : d.payload.interpreter = d'.payload.interpreter)
      (hscript : d.payload.script = d'.payload.script) :
      line = d'.shellLine? drawn' offer' framework' refusal' ↔
        d.payload.SameParameters d'.payload ∨ d.payload.Regroups d'.payload ∨
          d'.payload.Regroups d.payload := by
    rw [shellLine?_eq, ← Payload.commandLine_eq_commandLine_iff hinterpreter hscript]
    exact Option.some_inj
  refine ⟨rfl, hlines, fun hplain d' drawn' offer' framework' refusal' hinterpreter hscript hline => ?_,
    fun htold hspaced => ?_⟩
  · rcases (hlines d' drawn' offer' framework' refusal' hinterpreter hscript).1 hline with
      hsame | hregroups | hregroups
    · exact hsame
    · exact absurd hregroups.spaced_left hplain
    · exact absurd hregroups.spaced_right hplain
  · obtain ⟨q, hinterpreter, hscript, hregroups, hother⟩ := Payload.exists_regrouping hspaced
    have hline := (hlines { d with payload := q } drawn offer framework refusal hinterpreter.symm
      hscript.symm).2 (.inr hregroups)
    exact hother (htold { d with payload := q } drawn offer framework refusal hinterpreter.symm
      hscript.symm hline)

/-- A word can go from one parameter to the other, but quotes and an empty parameter stay where they
are. -/
theorem tells_parameters_unless_spaced_quotes :
    let d (first second : String) : Dispatcher :=
      .ofPayload ⟨"http://repo", "install.py", "python", first, second⟩ fun _ => "t"
    let line (first second : String) : Option String :=
      (d first second).shellLine? 0 ⟨"o1", "a1", "h1", []⟩ "f" 5
    line "x 'y'" "z" = line "x" "'y' z" ∧ line "" "'y'" ≠ line "'y'" "" := by
  intro d line
  obtain ⟨-, hregroups, -⟩ :=
    tells_parameters_unless_spaced (d "x 'y'" "z") 0 ⟨"o1", "a1", "h1", []⟩ "f" 5
  obtain ⟨-, -, htold⟩ :=
    tells_parameters_unless_spaced (d "" "'y'") 0 ⟨"o1", "a1", "h1", []⟩ "f" 5
  have hplain : ¬ (d "" "'y'").payload.Spaced := by
    simp [Payload.Spaced, d, ofPayload]
  refine ⟨(hregroups (d "x" "'y' z") 0 ⟨"o1", "a1", "h1", []⟩ "f" 5 rfl rfl).2
    (.inr (.inr ⟨"'y'", rfl, rfl⟩)), fun hline => ?_⟩
  have hsame := htold.1 hplain (d "'y'" "") 0 ⟨"o1", "a1", "h1", []⟩ "f" 5 rfl rfl hline
  exact absurd hsame.1 (by decide)

/-- The space in the first parameter of the one is the space between the parameters of the other. -/
theorem different_parameters_share_line :
    let d (first second : String) : Dispatcher :=
      .ofPayload ⟨"http://repo", "install.py", "python", first, second⟩ fun _ => "t"
    let line (d : Dispatcher) : Option String := d.shellLine? 0 ⟨"o1", "a1", "h1", []⟩ "f" 5
    line (d "a b" "c") = some "python install.py a b c" ∧ line (d "a b" "c") = line (d "a" "b c") ∧
      (d "a b" "c").payload.first ≠ (d "a" "b c").payload.first := by
  decide +kernel

end Dispatcher

end Rollout

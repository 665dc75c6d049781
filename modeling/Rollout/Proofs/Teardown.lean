import Rollout.Proofs.Installation

/-!
What a stop says about the teardown.

A framework is torn down once a teardown of it has been posted and the answer accepts it. Nothing
but the first stop of a session posts a teardown, so that stop succeeds exactly if it tears the
framework down. The session counts as stopped from then on, even if the first stop failed: a later
stop posts nothing and succeeds all the same, and that is the one case where it says too much.
-/
namespace Rollout.Master.Session

/-- One of the requests posted so far is a teardown of the framework, and its answer accepts it. -/
def TornDown (s : Session) (answers : Answers) (line : Line) : Prop :=
  ∃ n response, line.posted[n]? = some (s.request (.teardown s.framework)) ∧
    answers n = some response ∧ response.code = acceptedCode

variable {s : Session} {answers : Answers} {early : List Command}

/-- Commands other than stops post no teardown. -/
theorem teardown_notMem_requests (h : .stop ∉ early) :
    s.request (.teardown s.framework) ∉ early.flatMap s.requests := by
  intro hmem
  obtain ⟨c, hc, hq⟩ := List.mem_flatMap.1 hmem
  exact h (eq_stop_of_teardown hq rfl ▸ hc)

theorem getElem?_concat_eq_some_iff {α : Type} {l : List α} {a : α} (h : a ∉ l) {n : Nat} :
    (l ++ [a])[n]? = some a ↔ n = l.length := by
  constructor
  · intro hn
    rcases Nat.lt_or_ge n l.length with hlt | hge
    · rw [List.getElem?_append_left hlt] at hn
      exact absurd (List.mem_of_getElem? hn) h
    · obtain ⟨hbound, -⟩ := List.getElem?_eq_some_iff.1 hn
      rw [List.length_append, List.length_singleton] at hbound
      exact Nat.le_antisymm (Nat.le_of_lt_succ hbound) hge
  · rintro rfl
    exact List.getElem?_concat_length

/-- Once a session has been stopped, the framework is torn down exactly if its first stop succeeded,
for the answer to the one teardown that was posted decides both. -/
theorem tornDown_after_iff (h : .stop ∉ early) (later : List Command) :
    let m := s.manager answers
    s.TornDown answers (m.after .initial (early ++ .stop :: later)) ↔
      (m.perform .stop (m.after .initial early)).1 = .ok () := by
  intro m
  have hline : m.after .initial (early ++ .stop :: later) =
      ⟨true, early.flatMap s.requests ++ [s.request (.teardown s.framework)]⟩ :=
    after_first_stop h later
  have hresult : (m.perform .stop (m.after .initial early)).1 =
      resultOf (answers (early.flatMap s.requests).length) := perform_first_stop h
  rw [hline, hresult, resultOf_eq_ok_iff]
  simp only [TornDown, getElem?_concat_eq_some_iff (teardown_notMem_requests h)]
  constructor
  · rintro ⟨n, response, rfl, hanswer⟩
    exact ⟨response, hanswer⟩
  · rintro ⟨response, hanswer⟩
    exact ⟨_, response, rfl, hanswer⟩

/-- After every history of commands a stop succeeds if the framework is torn down by then, and also
if the session was stopped before. So it succeeds without a teardown exactly if the first stop of
the session has failed before. -/
theorem stop_succeeds_iff (s : Session) (answers : Answers) (before : List Command) :
    let m := s.manager answers
    let done := m.perform .stop (m.after .initial before)
    (done.1 = .ok () ↔ .stop ∈ before ∨ s.TornDown answers done.2) ∧
    (done.1 = .ok () ∧ ¬ s.TornDown answers done.2 ↔
      ∃ early later, before = early ++ .stop :: later ∧ .stop ∉ early ∧
        (m.perform .stop (m.after .initial early)).1 ≠ .ok ()) := by
  intro m done
  have hdone : done.2 = m.after .initial (before ++ [.stop]) :=
    (m.after_append .initial before [.stop]).symm
  have hagrees : .stop ∈ before → done.1 = .ok () := by
    intro h
    obtain ⟨early, later, rfl, hearly⟩ := List.eq_append_cons_of_mem h
    have hline : m.after .initial (early ++ .stop :: later) = _ := after_first_stop hearly later
    exact congrArg Prod.fst (perform_of_stopped (by rw [hline]) .stop)
  have hsucceeds : done.1 = .ok () ↔ .stop ∈ before ∨ s.TornDown answers done.2 := by
    by_cases h : .stop ∈ before
    · exact iff_of_true (hagrees h) (.inl h)
    · rw [or_iff_right h, hdone]
      exact (tornDown_after_iff h []).symm
  refine ⟨hsucceeds, fun ⟨hok, hstands⟩ => ?_, ?_⟩
  · obtain ⟨early, later, rfl, hearly⟩ :=
      List.eq_append_cons_of_mem ((hsucceeds.1 hok).resolve_right hstands)
    refine ⟨early, later, rfl, hearly, fun hfirst => hstands ?_⟩
    rw [hdone, List.append_assoc, List.cons_append]
    exact (tornDown_after_iff hearly (later ++ [.stop])).2 hfirst
  · rintro ⟨early, later, rfl, hearly, hfailed⟩
    refine ⟨hagrees (List.mem_append_right _ List.mem_cons_self), fun htorn => hfailed ?_⟩
    rw [hdone, List.append_assoc, List.cons_append] at htorn
    exact (tornDown_after_iff hearly (later ++ [.stop])).1 htorn

/-- A teardown that the master refuses: the first stop says so, the second one succeeds, and the
framework has not been torn down. -/
theorem second_stop_after_refusal :
    let s : Session := ⟨⟨"m:5050".toList, schedulerPath, none⟩, "stream-7", "fw-42", 5.0⟩
    let answers : Answers := fun _ => some ⟨503, [], []⟩
    let m := s.manager answers
    (m.perform .stop .initial).1 ≠ .ok () ∧
      let done := m.perform .stop (m.after .initial [.stop])
      done.1 = .ok () ∧ ¬ s.TornDown answers done.2 := by
  intro s answers m
  refine ⟨nofun, rfl, ?_⟩
  rintro ⟨n, response, -, hanswer, hcode⟩
  cases hanswer
  exact absurd hcode (by decide)

end Rollout.Master.Session

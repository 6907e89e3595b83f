import RequestBoard.Proofs.Fetch.Dialogue

/-!
# A question without keys need not be asked

A run stops as soon as it has nothing left to look up.  Were it to ask on without keys, it would be for
the whole view.  But take a document store to which no keys mean that nothing is looked up: there the two
remaining questions would bring no rows, and a run that stops has lost nothing.

* `Source.Answers` — a source whose answers depend on the questions alone.
* `Fetch.askAll` — all three questions, one after the other, whether there are keys or not.
* `Fetch.Course.result_eq_askAll` — **each of the six ways in which a run can go ends as all three
  questions do**.
* `Fetch.run_eq_askAll` — **the result**.
-/

namespace RequestBoard

/-! ## Sources that are functions -/

/-- The source answers by what it is asked, whatever state it is in. -/
def Source.Answers {σ : Type} (source : Source σ) (answer : Ask → Reply) : Prop :=
  ∀ ask state, (source ask state).1 = answer ask

/-- The source that answers by a function and has no state. -/
def Source.ofAnswers (answer : Ask → Reply) : Source Unit := fun ask state => (answer ask, state)

theorem Source.answers_ofAnswers (answer : Ask → Reply) : (ofAnswers answer).Answers answer :=
  fun _ _ => rfl

namespace Fetch

/-- The answer is a response without rows. -/
def FindsNothing (reply : Reply) : Prop := ∃ response, reply = .ok response ∧ response.rows = []

/-- Asks all three questions, one after the other, whether the rows so far have keys or not. -/
def askAll (views : ViewNames) (answer : Ask → Reply) : Except Fault Batches := do
  let first ← answer (.registry views)
  let second ← answer (.latest views (View.identifiers first.rows))
  let third ← answer (.agents views (View.identifiers second.rows))
  return ⟨first.rows, third.rows⟩

variable {views : ViewNames} {answer : Ask → Reply} {first second : View.Response} {fault : Fault}

/-! ## Where asking everything ends -/

theorem askAll_of_registry_error (hfirst : answer (.registry views) = .error fault) :
    askAll views answer = .error fault := by
  simp only [askAll, hfirst, bind, Except.bind]

theorem askAll_of_latest_error (hfirst : answer (.registry views) = .ok first)
    (hsecond : answer (.latest views (View.identifiers first.rows)) = .error fault) :
    askAll views answer = .error fault := by
  simp only [askAll, hfirst, hsecond, bind, Except.bind]

theorem askAll_of_ok {third : Reply} (hfirst : answer (.registry views) = .ok first)
    (hsecond : answer (.latest views (View.identifiers first.rows)) = .ok second)
    (hthird : answer (.agents views (View.identifiers second.rows)) = third) :
    askAll views answer = third.map fun response => ⟨first.rows, response.rows⟩ := by
  simp only [askAll, hfirst, hsecond, hthird, bind, Except.bind]
  cases third <;> rfl

/-- Where the second answer leaves nothing to look up, the third one would bring nothing. -/
theorem askAll_of_nothing_entered (hagents : FindsNothing (answer (.agents views [])))
    (hfirst : answer (.registry views) = .ok first)
    (hsecond : answer (.latest views (View.identifiers first.rows)) = .ok second)
    (hkeys : View.identifiers second.rows = []) :
    askAll views answer = .ok ⟨first.rows, []⟩ := by
  obtain ⟨third, hthird, hrows⟩ := hagents
  rw [← hkeys] at hthird
  rw [askAll_of_ok hfirst hsecond hthird, Except.map, hrows]

/-! ## Runs -/

/-- **Each way in which a run can go ends as all three questions do**, if no keys bring no rows. -/
theorem Course.result_eq_askAll {log : List (Ask × Reply)} {result : Except Fault Batches}
    (h : Course views log result) (hlog : ∀ entry ∈ log, answer entry.1 = entry.2)
    (hlatest : FindsNothing (answer (.latest views [])))
    (hagents : FindsNothing (answer (.agents views []))) : result = askAll views answer := by
  cases h with
  | registryFails fault =>
    obtain ⟨h1, -⟩ := List.forall_mem_cons.1 hlog
    exact (askAll_of_registry_error h1).symm
  | nothingRegistered first hfirst =>
    obtain ⟨h1, -⟩ := List.forall_mem_cons.1 hlog
    -- the question that is not asked would bring no rows, and so no keys for the next one
    obtain ⟨second, hsecond, hrows⟩ := hlatest
    rw [← View.identifiedBy_iff.1 hfirst] at hsecond
    refine (askAll_of_nothing_entered hagents h1 hsecond ?_).symm
    rw [hrows]
    rfl
  | latestFails first keys hfirst hkeys fault =>
    obtain rfl := View.identifiedBy_iff.1 hfirst
    obtain ⟨h1, hlater⟩ := List.forall_mem_cons.1 hlog
    obtain ⟨h2, -⟩ := List.forall_mem_cons.1 hlater
    exact (askAll_of_latest_error h1 h2).symm
  | nothingEntered first second keys hfirst hkeys hsecond =>
    obtain rfl := View.identifiedBy_iff.1 hfirst
    obtain ⟨h1, hlater⟩ := List.forall_mem_cons.1 hlog
    obtain ⟨h2, -⟩ := List.forall_mem_cons.1 hlater
    exact (askAll_of_nothing_entered hagents h1 h2 (View.identifiedBy_iff.1 hsecond)).symm
  | agentsFail first second keys entryKeys hfirst hkeys hsecond hentryKeys fault =>
    obtain rfl := View.identifiedBy_iff.1 hfirst
    obtain rfl := View.identifiedBy_iff.1 hsecond
    obtain ⟨h1, hlater⟩ := List.forall_mem_cons.1 hlog
    obtain ⟨h2, hlast⟩ := List.forall_mem_cons.1 hlater
    obtain ⟨h3, -⟩ := List.forall_mem_cons.1 hlast
    exact (askAll_of_ok h1 h2 h3).symm
  | complete first second third keys entryKeys hfirst hkeys hsecond hentryKeys =>
    obtain rfl := View.identifiedBy_iff.1 hfirst
    obtain rfl := View.identifiedBy_iff.1 hsecond
    obtain ⟨h1, hlater⟩ := List.forall_mem_cons.1 hlog
    obtain ⟨h2, hlast⟩ := List.forall_mem_cons.1 hlater
    obtain ⟨h3, -⟩ := List.forall_mem_cons.1 hlast
    exact (askAll_of_ok h1 h2 h3).symm

/-- **A question without keys need not be asked.**  Take a source that answers by the question alone, and
that brings no rows, and no fault either, where the second or the third question comes without keys.
Then a run, which leaves such questions out, has the same result as asking all three: the same batches,
or the same fault. -/
theorem run_eq_askAll {σ : Type} {source : Source σ} (hsource : source.Answers answer)
    (hlatest : FindsNothing (answer (.latest views [])))
    (hagents : FindsNothing (answer (.agents views []))) (state : σ) :
    (run views source state).1 = askAll views answer := by
  obtain ⟨log, hlog, hanswers, -⟩ := exists_dialogue (α := Unit) views source (fun _ => [])
    (fun _ _ => []) (fun _ _ => rfl) .registry state
  refine hlog.course.result_eq_askAll (fun entry hentry => ?_) hlatest hagents
  obtain ⟨before, hbefore⟩ := hanswers entry hentry
  rw [← hsource entry.1 before, hbefore]

/-- The registry has a row that can be looked up.  In one store its latest entry cannot, so the third
question is left out, and would bring nothing; in another one it can, and there is a row for it. -/
theorem run_eq_askAll_of_unidentified :
    ∃ answer answer' : Ask → Reply,
      (FindsNothing (answer (.latest {} [])) ∧ FindsNothing (answer (.agents {} []))) ∧
      (FindsNothing (answer' (.latest {} [])) ∧ FindsNothing (answer' (.agents {} []))) ∧
      (run {} (Source.ofAnswers answer) ()).1 = askAll {} answer ∧
      (run {} (Source.ofAnswers answer') ()).1 = askAll {} answer' ∧
      askAll {} answer = .ok ⟨[.document "a" .null], []⟩ ∧
      askAll {} answer' = .ok ⟨[.document "a" .null], [.document "b" .null]⟩ := by
  have hnothing : FindsNothing (.ok {}) := ⟨{}, rfl, rfl⟩
  let finding (entry : View.Row) (ask : Ask) : Reply :=
    if ask.view = "campaign-request" then .ok { rows := [.document "a" .null] }
    else if ask.query.keys.isEmpty then .ok {}
    else .ok { rows := [entry] }
  refine ⟨finding {}, finding (.document "b" .null), ⟨hnothing, hnothing⟩, ⟨hnothing, hnothing⟩, ?_, ?_,
    rfl, rfl⟩
  · exact run_eq_askAll (Source.answers_ofAnswers _) hnothing hnothing ()
  · exact run_eq_askAll (Source.answers_ofAnswers _) hnothing hnothing ()

/-- To a document store that takes no keys for the whole view, it does make a difference. -/
example :
    (run {} (Source.ofAnswers fun _ => .ok { rows := [{}] }) ()).1 = .ok ⟨[{}], []⟩ ∧
    askAll {} (fun _ => .ok { rows := [{}] }) = .ok ⟨[{}], [{}]⟩ := ⟨by cbv, rfl⟩

end Fetch

end RequestBoard

import Reckoner.Grammar.Forward

/-!
# Blame

A parser that fails leaves the stream where it failed.  Its error is about the entry that comes next
there: no parser names one entry and gives the location of another.

## Main definitions

* `ParseError.Blames` — that an error is about an entry.
* `Parser.BlamesNext` — that the errors of a parser are about what comes next where it fails.

## Main results

* `Parser.BlamesNext.compositional` — the whole grammar blames what comes next.
* `Script.read_rests` — the statements of a script, and its failure, come from rests of the stream
  that it was read from.
* `Script.blames_of_failure` — the failure of a script is about an entry of that stream.
-/

namespace Reckoner

/-- `e.Blames entry`: the error `e` is about the entry, which is not what was expected, or begins an
expression that is nested too deeply. -/
inductive ParseError.Blames : ParseError → Entry → Prop
  | unexpected (entry : Entry) (expected : Expectation) : Blames (.unexpected entry expected) entry
  | nestedTooDeeply (entry : Entry) : Blames (.nestedTooDeeply entry.location) entry

/-- An error is located where the entry is that it is about. -/
theorem ParseError.Blames.location_eq {e : ParseError} {entry : Entry} (h : e.Blames entry) :
    e.location = entry.location := by
  cases h <;> rfl

namespace Parser

/-- The errors of a parser are about what comes next where it fails. -/
def BlamesNext {α : Type} (p : Parser α) : Prop :=
  ∀ ⦃s t : TokenStream⦄ ⦃e : ParseError⦄, p s = .error e t → e.Blames t.head

/-- A failing step blames what comes next. -/
theorem BlamesNext.steps : Steps fun _ => BlamesNext where
  pure a s t e hrun := by cases hrun
  bind {α β p f} hp hf s t e hrun := by
    cases hfirst : p s with
    | error e' u =>
      rw [bind_run_error hfirst] at hrun
      cases hrun
      exact hp hfirst
    | ok a u =>
      rw [bind_run_ok hfirst] at hrun
      exact hf a hrun
  current s t e hrun := by cases hrun
  advance s t e hrun := by cases hrun
  reject expected s t e hrun := by
    cases hrun
    exact .unexpected s.head expected
  tooDeep s t e hrun := by
    cases hrun
    exact .nestedTooDeeply s.head

/-- All parsers of the grammar blame what comes next, because its steps do. -/
theorem BlamesNext.compositional : Compositional fun _ => BlamesNext :=
  steps.compositional fun _ _ _ hrun => by cases hrun

end Parser

/-! ### Where scripts come from -/

namespace Script

/-- What is in a script was read from a rest of the stream, or failed to be. -/
theorem read_rests (s : TokenStream) :
    (∀ node ∈ (read s).1.statements,
      ∃ t u, t.IsRestOf s ∧ Grammar.statement t = .ok node u) ∧
      ∀ e, (read s).1.failure = some e →
        ∃ t u, t.IsRestOf s ∧ Grammar.statement t = .error e u := by
  induction hlen : s.length using Nat.strongRecOn generalizing s with
  | _ n ih =>
    rw [read_eq]
    split
    · exact ⟨nofun, nofun⟩
    split
    · next node rest hrun =>
      have hlt := Grammar.statement_progressive hrun
      have hrest := Grammar.statement_forward.of_ok hrun
      obtain ⟨hstatements, hfailure⟩ := ih rest.length (by omega) rest rfl
      constructor
      · intro node' hnode'
        rcases List.mem_cons.1 hnode' with rfl | hnode'
        · exact ⟨s, rest, .refl s, hrun⟩
        · obtain ⟨t, u, ht, hread⟩ := hstatements node' hnode'
          exact ⟨t, u, ht.trans hrest, hread⟩
      · intro e he
        obtain ⟨t, u, ht, hread⟩ := hfailure e he
        exact ⟨t, u, ht.trans hrest, hread⟩
    · next e rest hrun =>
      refine ⟨nofun, fun e' he' => ?_⟩
      cases he'
      exact ⟨s, rest, .refl s, hrun⟩

/-- The failure of a script is about an entry of the stream it was read from. -/
theorem blames_of_failure {s : TokenStream} {e : ParseError} (h : (read s).1.failure = some e) :
    ∃ t : TokenStream, t.IsRestOf s ∧ e.Blames t.head := by
  obtain ⟨t, u, ht, hrun⟩ := (read_rests s).2 e h
  exact ⟨u, (Grammar.statement_forward.of_error hrun).trans ht,
    Parser.BlamesNext.compositional.statement hrun⟩

end Script

end Reckoner

import JsSyntax.Proofs.Layout
import JsSyntax.Proofs.RoundTrip.Consumes

/-! # Programs from runs over tokens

A run over tokens in any place tells the program of every source with these tokens, but for the
spans (`parseWith_of_runs`): what the parser does with a list of tokens can be told of the list
alone, and the text comes in with its tokens only.
-/

set_option autoImplicit false

namespace JsSyntax

open Parse

variable {limit : Nat} {source : String}

theorem parseWith_of_runs {s s₁ : State} {os : List Outcome} (h : Runs (level limit) s os s₁)
    (hrest : (startOf source).rest.map Token.phrase = s.rest.map Token.phrase) :
    (parseWith limit source).body.map Statement.erase =
        (os.filterMap statementOf?).map Statement.erase ∧
      (parseWith limit source).errors.map Diagnostic.message =
        (os.filterMap errorOf?).map Diagnostic.message := by
  have halong : placeless.Along s (startOf source) :=
    ⟨aligned_of_phrases hrest.symm, fun _ => rfl⟩
  obtain ⟨os', s', hos, hs', -, hruns⟩ := Alignment.runs_follow
    (Alignment.level_deepens (.inl rfl)) rfl (fun _ => id) h halong (.inl trivial)
  have hnil : s'.rest = [] := by
    rw [← List.length_eq_zero_iff, ← length_eq_of_along hs', h.reads.2]
    rfl
  have hruns' := hruns (.done hnil)
  rw [List.append_nil] at hruns'
  obtain ⟨os'', s'', hruns'', hparse⟩ := parseWith_runs limit source
  obtain ⟨rfl, -⟩ := hruns''.unique hruns'
  rw [hparse]
  exact ⟨(erase_eq_of_sameOutcome hos).symm, (message_eq_of_sameOutcome hos).symm⟩

/-- What one statement reads to the end is the whole program. -/
theorem parseWith_of_statement {ts : List Token} {st : Statement Unit} (hne : ts ≠ [])
    (h : Consumes (level limit).statement ts [] (·.erase = st))
    (hrest : (startOf source).rest.map Token.phrase = ts.map Token.phrase) :
    (parseWith limit source).errors = [] ∧
      (parseWith limit source).body.map Statement.erase = [st] := by
  let s : State := ⟨none, ts, default, []⟩
  obtain ⟨a, s₁, hok, hs₁, rfl⟩ := h (s := s) (List.append_nil ts).symm
  obtain ⟨hbody, herrors⟩ := parseWith_of_runs (.statement hne hok (.done hs₁)) hrest
  exact ⟨List.map_eq_nil_iff.1 herrors, hbody⟩

end JsSyntax

/-
What a thread has done between two configurations of a run: the procedure that
it was started with, and the calls that it has executed in between.
-/
import StatementAnalyzer.Async.Journal

namespace Async

variable {World Op : Type} {Val : Op → Type} {ε α : Type}

namespace System

variable {S : System World Op Val ε α} {c c' c'' : Config World Op Val ε α}
variable {t : Tid} {answered : Answered Op Val ε}

/-- The thread has executed the call between the two configurations. -/
structure Executed (S : System World Op Val ε α) (c c' : Config World Op Val ε α)
    (t : Tid) (answered : Answered Op Val ε)
    (before after : Config World Op Val ε α) : Prop where
  first : S.Leads c before
  executes : S.exec t answered.op before.world answered.answer after.world
  step : S.Leads before after
  last : S.Leads after c'

theorem Executed.extend {before after : Config World Op Val ε α}
    (h : S.Executed c c' t answered before after) (hleads : S.Leads c' c'') :
    S.Executed c c'' t answered before after :=
  ⟨h.first, h.executes, h.step, h.last.trans hleads⟩

/-- A thread that was idle has started in between, and has executed the calls
that have brought its procedure to where it is. -/
theorem Leads.span (hleads : S.Leads c c') (hidle : c.threads t = .idle) :
    ∀ q, c'.threads t = .running q →
      ∃ p w w' trace, S.start t p w w' ∧ Proc.Resumes p trace q ∧
        ∀ answered ∈ trace, ∃ before after,
          S.Executed c c' t answered before after := by
  induction hleads with
  | refl =>
      intro q hq
      rw [hidle] at hq
      cases hq
  | @tail b c' hleads hstep ih =>
      obtain ⟨l, hstep⟩ := hstep
      have hlast : S.Leads b c' := .single ⟨l, hstep⟩
      have hextend : ∀ answered, (∃ before after,
          S.Executed c b t answered before after) →
          ∃ before after, S.Executed c c' t answered before after := by
        rintro answered ⟨before, after, hexecuted⟩
        exact ⟨before, after, hexecuted.extend hlast⟩
      intro q hq
      rcases hstep.running hq with ⟨hsame, _⟩ |
        ⟨op, resume, answer, hawaited, rfl, hexec⟩ | ⟨_, hstart⟩
      · obtain ⟨p, w, w', trace, hstart, hresumes, hexecuted⟩ := ih q hsame
        exact ⟨p, w, w', trace, hstart, hresumes,
          fun answered hanswered => hextend answered (hexecuted answered hanswered)⟩
      · obtain ⟨p, w, w', trace, hstart, hresumes, hexecuted⟩ := ih _ hawaited
        refine ⟨p, w, w', trace ++ [⟨op, answer⟩], hstart,
          hresumes.concat answer, ?_⟩
        intro answered hanswered
        rcases List.mem_append.mp hanswered with hearlier | hnew
        · exact hextend answered (hexecuted answered hearlier)
        · obtain rfl := List.mem_singleton.mp hnew
          exact ⟨b, c', hleads, hexec, hlast, .refl⟩
      · exact ⟨q, _, _, [], hstart, .here, by simp⟩

end System

end Async

import NamespaceOwnership.Proofs.Control
import NamespaceOwnership.Proofs.Patch

/-!
# What the patches of a session are sent for

`Session.Sends` says of every patch that is accepted in a run of a session that it is accepted in a stretch of
the run with some property, such as to be the run of one part of the session. It is found part by part, and parts
that send no patch do not count.
-/
namespace NamespaceOwnership

open Session (Runs)

variable {α β σ : Type} {i : Interference} {how : List Event → Exchange → Prop}

namespace Session

/-- Every patch that is accepted in a run is accepted in such a stretch of it. -/
def Sends (i : Interference) (how : List Event → Exchange → Prop) (s : Session α) : Prop :=
  ∀ c tr a c', Runs i s c tr a c' → ∀ x ∈ accepted tr, ∃ mid, mid <:+: tr ∧ .asked x ∈ mid ∧ how mid x

variable {s : Session α} {f : α → Session β}

theorem Sends.of_runs (h : ∀ c tr a c', Runs i s c tr a c' → ∀ x ∈ accepted tr, how tr x) : s.Sends i how :=
  fun c tr a c' hrun x hx => ⟨tr, List.infix_rfl, (mem_accepted.mp hx).1, h c tr a c' hrun x hx⟩

theorem Sends.bind (hs : s.Sends i how)
    (hf : ∀ c tr a c', Runs i s c tr a c' → (f a).Sends i how) : (s >>= f).Sends i how := by
  intro c tr b c' hrun x hx
  obtain ⟨tr₁, a, c₁, tr₂, rfl, h₁, h₂⟩ := runs_bind.mp hrun
  rw [accepted_append, List.mem_append] at hx
  rcases hx with hx | hx
  · obtain ⟨mid, hmid, hmem, hhow⟩ := hs c tr₁ a c₁ h₁ x hx
    exact ⟨mid, hmid.trans (List.prefix_append tr₁ tr₂).isInfix, hmem, hhow⟩
  · obtain ⟨mid, hmid, hmem, hhow⟩ := hf c tr₁ a c₁ h₁ c₁ tr₂ b c' h₂ x hx
    exact ⟨mid, hmid.trans (List.suffix_append tr₁ tr₂).isInfix, hmem, hhow⟩

theorem Sends.mono {how' : List Event → Exchange → Prop} (hs : s.Sends i how)
    (h : ∀ mid x, how mid x → how' mid x) : s.Sends i how' := by
  intro c tr a c' hrun x hx
  obtain ⟨mid, hmid, hmem, hhow⟩ := hs c tr a c' hrun x hx
  exact ⟨mid, hmid, hmem, h mid x hhow⟩

theorem Runs.accepted_eq {c c' : Cluster} {tr : List Event} {a : α} (h : Runs i s c tr a c')
    (hs : s.Within Request.Sparing) : accepted tr = [] := accepted_eq_nil fun _ hx => h.within hs hx

theorem Within.sends (hs : s.Within Request.Sparing) : s.Sends i how := by
  intro c tr a c' hrun x hx
  rw [hrun.accepted_eq hs] at hx
  cases hx

theorem Sends.done {a : α} : (Session.done a).Sends i how := Within.sends trivial

theorem sends_note (note : Note) : (Session.note note).Sends i how := by
  intro c tr u c' hrun x hx
  obtain ⟨rfl, -⟩ := runs_note.mp hrun
  cases hx

end Session

namespace Attempt

variable {x : Attempt α} {f : α → Attempt β}

theorem sends_bind (hx : x.run.Sends i how)
    (hf : ∀ c tr a c', Runs i x.run c tr (.ok a) c' → (f a).run.Sends i how) : (x >>= f).run.Sends i how := by
  rw [ExceptT.run_bind]
  refine Session.Sends.bind hx fun c tr r c' hrun => ?_
  cases r with
  | error fault => exact .done
  | ok a => exact hf c tr a c' hrun

theorem sends_then (hx : x.run.Sends i how) (hf : ∀ a, (f a).run.Sends i how) : (x >>= f).run.Sends i how :=
  sends_bind hx fun _ _ a _ _ => hf a

theorem sends_note (note : Note) : (liftM (Session.note note) : Attempt Unit).run.Sends i how :=
  (Session.sends_note note).bind fun _ _ _ _ _ => .done

theorem sends_state_then {st : σ} {x : StateT σ Attempt α} {f : α → StateT σ Attempt β}
    (hx : (x.run st).run.Sends i how) (hf : ∀ a st₁, ((f a).run st₁).run.Sends i how) :
    ((x >>= f).run st).run.Sends i how := by
  rw [StateT.run_bind]
  exact sends_then hx fun p => hf p.1 p.2

theorem sends_state_forget {st : σ} {x : StateT σ Attempt α} (hx : (x.run st).run.Sends i how) :
    (x.run' st).run.Sends i how := by
  intro c tr r c' hrun
  obtain ⟨v, h, -⟩ := runs_state_forget.mp hrun
  exact hx c tr v c' h

end Attempt

namespace Control

variable {x : Control α} {f : α → Control β}

/-- Whatever the books are, every patch is accepted in such a stretch. -/
def Sends (i : Interference) (how : List Event → Exchange → Prop) (x : Control α) : Prop :=
  ∀ b, (x.run.run b).Sends i how

theorem Within.sends (hx : Within Request.Sparing x) : Sends i how x := fun b => (hx b).sends

theorem Sends.pure {a : α} : Sends i how (pure a : Control α) := Within.pure.sends

theorem Sends.throw {fault : Fault} : Sends i how (throw fault : Control α) := Within.throw.sends

theorem Sends.bind (hx : Sends i how x)
    (hf : ∀ b c tr a b' c', Runs i (x.run.run b) c tr (.ok a, b') c' → Sends i how (f a)) :
    Sends i how (x >>= f) := by
  intro b
  rw [run_bind]
  refine (hx b).bind fun c tr p c' hrun => ?_
  obtain ⟨r, b₁⟩ := p
  cases r with
  | error fault => exact .done
  | ok a => exact hf b c tr a b₁ c' hrun b₁

theorem Sends.then (hx : Sends i how x) (hf : ∀ a, Sends i how (f a)) : Sends i how (x >>= f) :=
  hx.bind fun _ _ _ a _ _ _ => hf a

theorem Sends.outcome (hx : Sends i how x) : Sends i how x.outcome :=
  fun b => (hx b).bind fun _ _ _ _ _ => .done

theorem sends_note (note : Note) : Sends i how (liftM (Session.note note) : Control Unit) := by
  intro b
  rw [run_session]
  exact (Session.sends_note note).bind fun _ _ _ _ _ => .done

end Control
end NamespaceOwnership

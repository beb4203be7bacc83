import NamespaceOwnership.Proofs.Course
import NamespaceOwnership.Proofs.Outcome
import NamespaceOwnership.Proofs.Sends

/-!
# Sessions composed of attempts

`Session.Composed` holds of a session that is put together from attempts of some kind and from other sessions that
send no patch of a namespace. So each of its patches is sent in the course of one of these attempts, and what is
known of their patches is known of all that it sends.
-/
namespace NamespaceOwnership

open Session (Course)

variable {α β ρ : Type} {part part' : Attempt ρ → Prop}

namespace Session

inductive Composed (part : Attempt ρ → Prop) : {α : Type} → Session α → Prop where
  | sparing {α : Type} {s : Session α} (h : s.Within Request.Sparing) : Composed part s
  | note (note : Note) : Composed part (Session.note note)
  | part {x : Attempt ρ} (h : part x) : Composed part x.run
  | bind {α β : Type} {s : Session α} {f : α → Session β} (hs : Composed part s)
      (hf : ∀ a, Composed part (f a)) : Composed part (s >>= f)

namespace Composed

variable {s : Session α}

theorem done {a : α} : Composed part (.done a : Session α) := .sparing trivial

theorem mono (hs : s.Composed part) (h : ∀ x, part x → part' x) : s.Composed part' := by
  induction hs with
  | sparing hs => exact .sparing hs
  | note note => exact .note note
  | part hx => exact .part (h _ hx)
  | bind _ _ ihs ihf => exact .bind ihs ihf

/-- Each patch is sent in the course of one of the attempts. -/
theorem exists_part {pre post : List Act} {request : Request} {answer : request.Answer} {a : α}
    (hs : s.Composed part) (h : Course s (pre ++ .asked request answer :: post) a) (hpatch : request.isPatch = true) :
    ∃ x before inner rest after result, part x ∧ pre = before ++ inner ∧ post = rest ++ after ∧
      Course x.run (inner ++ .asked request answer :: rest) result := by
  induction hs generalizing pre post with
  | sparing hs =>
    have hsparing : request.isPatch = false := h.within hs (List.mem_append_right pre List.mem_cons_self)
    rw [hpatch] at hsparing
    cases hsparing
  | note note =>
    have htold := course_note.mp h
    cases pre <;> simp at htold
  | @part x hx => exact ⟨x, [], pre, post, [], a, hx, rfl, by simp, h⟩
  | @bind _ _ _ f hs hf ihs ihf =>
    obtain ⟨first, v, later, hacts, hfirst, hlater⟩ := course_bind.mp h
    -- the patch is sent either where the first session ends, or before, or after that
    rcases List.append_eq_append_iff.mp hacts with ⟨mid, rfl, hmid⟩ | ⟨mid, rfl, hmid⟩
    · rcases List.cons_eq_append_iff.mp hmid with ⟨rfl, hlater'⟩ | ⟨mid, rfl, rfl⟩
      · have hsecond : Course (f v) ([] ++ .asked request answer :: post) a := hlater' ▸ hlater
        obtain ⟨x, before, inner, rest, after, result, hx, hpre, hpost, hcourse⟩ := ihf v hsecond
        obtain ⟨rfl, rfl⟩ := List.append_eq_nil_iff.mp hpre.symm
        exact ⟨x, pre, [], rest, after, result, hx, by simp, hpost, hcourse⟩
      · obtain ⟨x, before, inner, rest, after, result, hx, rfl, rfl, hcourse⟩ := ihs hfirst
        exact ⟨x, before, inner, rest, after ++ later, result, hx, rfl, by simp, hcourse⟩
    · obtain ⟨x, before, inner, rest, after, result, hx, rfl, rfl, hcourse⟩ := ihf v (hmid ▸ hlater)
      exact ⟨x, first ++ before, inner, rest, after, result, hx, by simp, rfl, hcourse⟩

theorem sends {i : Interference} {how : List Event → Exchange → Prop} (hs : s.Composed part)
    (h : ∀ x, part x → x.run.Sends i how) : s.Sends i how := by
  induction hs with
  | sparing hs => exact hs.sends
  | note note => exact sends_note note
  | part hx => exact h _ hx
  | bind _ _ ihs ihf => exact ihs.bind fun _ _ a _ _ => ihf a

theorem idle {c : Cluster} (hs : s.Composed part) (h : ∀ x, part x → x.run.Idle c) : s.Idle c := by
  induction hs with
  | sparing hs => exact hs.idle fun _ h => h
  | note note => exact idle_note note
  | part hx => exact h _ hx
  | bind _ _ ihs ihf => exact ihs.then ihf

end Composed
end Session

theorem Attempt.composed_bind {x : Attempt α} {f : α → Attempt β} (hx : x.run.Composed part)
    (hf : ∀ a, (f a).run.Composed part) : (x >>= f).run.Composed part := by
  rw [ExceptT.run_bind]
  refine .bind hx fun r => ?_
  cases r with
  | error fault => exact .done
  | ok a => exact hf a

namespace Control

variable {x : Control α} {f : α → Control β}

/-- Whatever the books are, it is composed of such attempts. -/
def Composed (part : Attempt ρ → Prop) (x : Control α) : Prop := ∀ b, (x.run.run b).Composed part

namespace Composed

theorem sparing (hx : Within Request.Sparing x) : Composed part x := fun b => .sparing (hx b)

theorem pure {a : α} : Composed part (pure a : Control α) := .sparing .pure

theorem throw {fault : Fault} : Composed part (throw fault : Control α) := .sparing .throw

theorem get : Composed part (get : Control Books) := .sparing .get

theorem note (n : Note) : Composed part (liftM (Session.note n) : Control Unit) := by
  intro b
  rw [run_session]
  exact .bind (.note n) fun _ => .done

theorem bind (hx : Composed part x) (hf : ∀ a, Composed part (f a)) : Composed part (x >>= f) := by
  intro b
  rw [run_bind]
  refine .bind (hx b) fun p => ?_
  obtain ⟨r, b₁⟩ := p
  cases r with
  | error fault => exact .done
  | ok a => exact hf a b₁

theorem outcome (hx : Composed part x) : Composed part x.outcome := fun b => .bind (hx b) fun _ => .done

theorem attempt {a : Attempt α} (ha : a.run.Composed part) : Composed part (Control.attempt a) :=
  fun _ => .bind ha fun _ => .done

theorem mono (hx : Composed part x) (h : ∀ a, part a → part' a) : Composed part' x := fun b => (hx b).mono h

theorem sends {i : Interference} {how : List Event → Exchange → Prop} (hx : Composed part x)
    (h : ∀ a, part a → a.run.Sends i how) : Sends i how x := fun b => (hx b).sends h

theorem idle {c : Cluster} (hx : Composed part x) (h : ∀ a, part a → a.run.Idle c) : Idle c x :=
  fun b => (hx b).idle h

end Composed
end Control
end NamespaceOwnership

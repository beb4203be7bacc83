import NamespaceOwnership.Proofs.Ledger.Exits

/-!
# An update whose deadline passes

The clock never goes back, and it advances in API calls only, by any amount (`Elapses`); then every act has its time.
An update looks at the clock before each reading, so that it reads before its deadline only. Between the reading and
the patch there may be calls of the change, in which the deadline can pass: that patch is late, and the update looks at
the clock again before it would send another one (`Ledger.modify_punctual`).
-/
namespace NamespaceOwnership

open Session (Course)

/-- An act and the time at which it was done. -/
structure Timed where
  time : Int
  act : Act

/-- A look at the clock shows the time, and only the answers of the API take time. -/
inductive Elapses : Int → List Act → List Timed → Int → Prop where
  | done (now : Int) : Elapses now [] [] now
  | told {now later : Int} {acts : List Act} {timed : List Timed} (note : Note) (rest : Elapses now acts timed later) :
      Elapses now (.told note :: acts) (⟨now, .told note⟩ :: timed) later
  | looked {now later : Int} {acts : List Act} {timed : List Timed} (rest : Elapses now acts timed later) :
      Elapses now (.asked .clock now :: acts) (⟨now, .asked .clock now⟩ :: timed) later
  | called {now next later : Int} {acts : List Act} {timed : List Timed} {call : ApiCall}
      (reply : Except CallFailure call.Reply) (passed : now ≤ next) (rest : Elapses next acts timed later) :
      Elapses now (.asked (.api call) reply :: acts) (⟨now, .asked (.api call) reply⟩ :: timed) later

namespace Elapses

variable {now later : Int} {acts acts' : List Act} {timed : List Timed}

theorem le (h : Elapses now acts timed later) : now ≤ later := by
  induction h with
  | done => exact Int.le_refl _
  | told _ _ ih | looked _ ih => exact ih
  | called _ passed _ ih => exact Int.le_trans passed ih

theorem le_later (h : Elapses now acts timed later) {x : Timed} (hx : x ∈ timed) : x.time ≤ later := by
  induction h with
  | done => cases hx
  | told _ rest ih | looked rest ih =>
    rcases List.mem_cons.mp hx with rfl | hx
    · exact rest.le
    · exact ih hx
  | called _ passed rest ih =>
    rcases List.mem_cons.mp hx with rfl | hx
    · exact Int.le_trans passed rest.le
    · exact ih hx

theorem map_act (h : Elapses now acts timed later) : timed.map Timed.act = acts := by
  induction h with
  | done => rfl
  | told _ _ ih | looked _ ih | called _ _ _ ih => rw [List.map_cons, ih]

theorem act_mem (h : Elapses now acts timed later) {x : Timed} (hx : x ∈ timed) : x.act ∈ acts :=
  h.map_act ▸ List.mem_map_of_mem hx

end Elapses

theorem elapses_append {now later : Int} {acts acts' : List Act} {timed : List Timed} :
    Elapses now (acts ++ acts') timed later ↔ ∃ first mid rest, timed = first ++ rest ∧
      Elapses now acts first mid ∧ Elapses mid acts' rest later := by
  constructor
  · intro h
    induction acts generalizing now timed with
    | nil => exact ⟨[], now, timed, rfl, .done now, h⟩
    | cons act acts ih =>
      cases h with
      | told note h =>
        obtain ⟨first, mid, rest, rfl, h₁, h₂⟩ := ih h
        exact ⟨_, mid, rest, rfl, .told note h₁, h₂⟩
      | looked h =>
        obtain ⟨first, mid, rest, rfl, h₁, h₂⟩ := ih h
        exact ⟨_, mid, rest, rfl, .looked h₁, h₂⟩
      | called reply passed h =>
        obtain ⟨first, mid, rest, rfl, h₁, h₂⟩ := ih h
        exact ⟨_, mid, rest, rfl, .called reply passed h₁, h₂⟩
  · rintro ⟨first, mid, rest, rfl, h₁, h₂⟩
    induction h₁ with
    | done => exact h₂
    | told note _ ih => exact .told note (ih h₂)
    | looked _ ih => exact .looked (ih h₂)
    | called reply passed _ ih => exact .called reply passed (ih h₂)

/-- A namespace is read. -/
def Act.isRead : Act → Bool
  | .asked (.api (.readNamespace _)) _ => true
  | _ => false

def Act.isPatch : Act → Bool
  | .asked request _ => request.isPatch
  | .told _ => false

/-- A namespace is neither read nor patched. -/
structure Act.Aside (act : Act) : Prop where
  unread : act.isRead = false
  unpatched : act.isPatch = false

/-- The patches that are sent when the deadline has passed. -/
def late (limit : Int) (timed : List Timed) : List Timed :=
  timed.filter fun x => x.act.isPatch && decide (limit ≤ x.time)

section Late

variable {limit now later : Int} {acts : List Act} {timed : List Timed} {x : Timed}

@[simp] theorem late_append (first rest : List Timed) :
    late limit (first ++ rest) = late limit first ++ late limit rest := List.filter_append ..

theorem mem_late : x ∈ late limit timed ↔ x ∈ timed ∧ x.act.isPatch = true ∧ limit ≤ x.time := by
  simp [late]

theorem late_eq_nil_of_aside (h : Elapses now acts timed later) (haside : ∀ act ∈ acts, act.Aside) :
    late limit timed = [] := by
  refine List.eq_nil_iff_forall_not_mem.mpr fun x hx => ?_
  obtain ⟨hmem, hpatch, -⟩ := mem_late.mp hx
  rw [(haside _ (h.act_mem hmem)).unpatched] at hpatch
  cases hpatch

end Late

/-- Namespaces are read before the deadline only. At most one patch is late, and none if the deadline has passed at the
beginning. -/
structure Punctual (limit now : Int) (timed : List Timed) (later : Int) : Prop where
  onward : now ≤ later
  reads : ∀ x ∈ timed, x.act.isRead = true → x.time < limit
  once : (late limit timed).length ≤ 1
  expired : late limit timed ≠ [] → limit ≤ later
  none : limit ≤ now → late limit timed = []

namespace Punctual

variable {limit now mid later : Int} {acts acts' : List Act} {first rest timed : List Timed}

theorem aside (hclock : Elapses now acts timed later) (h : ∀ act ∈ acts, act.Aside) :
    Punctual limit now timed later where
  onward := hclock.le
  reads x hx hread := by
    rw [(h _ (hclock.act_mem hx)).unread] at hread
    cases hread
  once := by simp [late_eq_nil_of_aside hclock h]
  expired hlate := absurd (late_eq_nil_of_aside hclock h) hlate
  none _ := late_eq_nil_of_aside hclock h

theorem trans (h : Punctual limit now first mid) (h' : Punctual limit mid rest later) :
    Punctual limit now (first ++ rest) later where
  onward := Int.le_trans h.onward h'.onward
  reads x hx := (List.mem_append.mp hx).elim (h.reads x) (h'.reads x)
  once := by
    rw [late_append]
    by_cases hfirst : late limit first = []
    · simpa [hfirst] using h'.once
    · simpa [h'.none (h.expired hfirst)] using h.once
  expired hlate := by
    rw [late_append, Ne, List.append_eq_nil_iff] at hlate
    by_cases hfirst : late limit first = []
    · exact h'.expired fun hrest => hlate ⟨hfirst, hrest⟩
    · exact Int.le_trans (h.expired hfirst) h'.onward
  none hlimit := by
    rw [late_append, h.none hlimit, h'.none (Int.le_trans hlimit h.onward), List.append_nil]

/-- A reading before the deadline. -/
theorem read {space : String} {reply : Except CallFailure (Option NamespaceObject)} (h : now < limit)
    (hclock : Elapses now [.asked (.api (.readNamespace space)) reply] timed later) :
    Punctual limit now timed later ∧ late limit timed = [] := by
  cases hclock with
  | called _ passed rest =>
    cases rest with
    | done =>
      have hlate : late limit [(⟨now, .asked (.api (.readNamespace space)) reply⟩ : Timed)] = [] := rfl
      refine ⟨⟨passed, fun x hx _ => ?_, by simp [hlate], (absurd hlate ·), fun _ => hlate⟩, hlate⟩
      rw [List.mem_singleton.mp hx]
      exact h

/-- After something else, which began before the deadline, one patch may be late. -/
theorem patched {space : String} {patch : NamespacePatch} {reply : Except CallFailure (Option NamespaceObject)}
    (hbegun : now < limit) (h : Punctual limit now first mid) (hnone : late limit first = [])
    (hclock : Elapses mid [.asked (.api (.patchNamespace space patch)) reply] rest later) :
    Punctual limit now (first ++ rest) later := by
  cases hclock with
  | called _ passed hdone =>
    cases hdone with
    | done =>
      refine ⟨Int.le_trans h.onward passed, fun x hx hread => ?_, ?_, fun hlate => ?_,
        (absurd hbegun <| Int.not_lt.mpr ·)⟩
      · rcases List.mem_append.mp hx with hx | hx
        · exact h.reads x hx hread
        · rw [List.mem_singleton.mp hx] at hread
          cases hread
      · rw [late_append, hnone, List.nil_append]
        exact List.length_filter_le _ _
      · rw [late_append, hnone, List.nil_append] at hlate
        obtain ⟨x, hx⟩ := List.exists_mem_of_ne_nil _ hlate
        obtain ⟨hmem, -, hlimit⟩ := mem_late.mp hx
        rw [List.mem_singleton.mp hmem] at hlimit
        exact Int.le_trans hlimit passed

end Punctual

namespace Act.Aside

theorem told (note : Note) : (Act.told note).Aside := ⟨rfl, rfl⟩

theorem clock (time : Int) : (Act.asked .clock time).Aside := ⟨rfl, rfl⟩

/-- The calls of a session that reads DynaKubes only are of no account. -/
theorem of_isReading {α : Type} {s : Session α} {acts : List Act} {a : α} (hs : s.Within Request.IsReading)
    (h : Course s acts a) : ∀ act ∈ acts, act.Aside := by
  rintro (note | ⟨request, answer⟩) hact
  · exact .told note
  · obtain ⟨name, rfl⟩ := h.within hs hact
    exact ⟨rfl, rfl⟩

end Act.Aside

namespace Ledger

variable {σ : Type} {space operation : String} {limit now later : Int} {change : Change σ} {st : σ}
  {acts : List Act} {timed : List Timed}

theorem Looks.elapses {looks : List (Part σ)} (h : Looks (some limit) acts looks)
    (hclock : Elapses now acts timed later) :
    now < limit ∧ later = now ∧ Punctual limit now timed later ∧ late limit timed = [] := by
  cases h with
  | @ahead _ time htime =>
    have haside : ∀ act ∈ [Act.asked .clock time], act.Aside := List.forall_mem_singleton.mpr (.clock time)
    have hpunctual : Punctual limit now timed later := .aside hclock haside
    have hnone : late limit timed = [] := late_eq_nil_of_aside hclock haside
    cases hclock with
    | looked rest =>
      cases rest with
      | done => exact ⟨htime, rfl, hpunctual, hnone⟩

theorem Tried.punctual {parts : List (Part σ)} {ending : Ending σ}
    (hchange : ∀ labels annotations st, ((change labels annotations).run st).run.Within Request.IsReading)
    (h : Tried space operation (some limit) change st acts parts ending) (hclock : Elapses now acts timed later) :
    Punctual limit now timed later := by
  have htold (told : List Note) : ∀ act ∈ told.map Act.told, act.Aside := fun act hact => by
    obtain ⟨note, -, rfl⟩ := List.mem_map.mp hact
    exact Act.Aside.told note
  -- the look at the clock and the reading, with all that comes after them
  have hread {first acts' : List Act} {looks : List (Part σ)} {reply : Except CallFailure (Option NamespaceObject)}
      (looked : Looks (some limit) first looks)
      (hclock : Elapses now (first ++ .asked (.api (.readNamespace space)) reply :: acts') timed later) :
      ∃ begun mid rest, timed = begun ++ rest ∧ now < limit ∧ Punctual limit now begun mid ∧ late limit begun = [] ∧
        Elapses mid acts' rest later := by
    rw [List.append_cons] at hclock
    obtain ⟨begun, mid, rest, rfl, hbegun, hrest⟩ := elapses_append.mp hclock
    obtain ⟨look, now', reading, rfl, hlook, hreading⟩ := elapses_append.mp hbegun
    obtain ⟨hahead, rfl, hpunctual, hnone⟩ := looked.elapses hlook
    obtain ⟨hpunctual', hnone'⟩ := Punctual.read hahead hreading
    exact ⟨_, mid, rest, rfl, hahead, hpunctual.trans hpunctual', by rw [late_append, hnone, hnone']; rfl, hrest⟩
  cases h with
  | expired _ _ => exact .aside hclock (List.forall_mem_singleton.mpr (.clock _))
  | gone text looked _ =>
    obtain ⟨begun, mid, rest, rfl, -, hbegun, -, hrest⟩ := hread looked hclock
    exact hbegun.trans (.aside hrest (htold [.log .info text]))
  | unread looked _ =>
    obtain ⟨begun, mid, rest, rfl, -, hbegun, -, hrest⟩ := hread looked hclock
    exact hbegun.trans (.aside hrest (htold []))
  | objected looked _ changed | idle looked _ changed _ =>
    obtain ⟨begun, mid, rest, rfl, -, hbegun, -, hrest⟩ := hread looked hclock
    exact hbegun.trans (.aside hrest (Act.Aside.of_isReading (hchange _ _ _) changed))
  | sent looked _ changed _ _ =>
    obtain ⟨begun, mid, rest, rfl, hahead, hbegun, hnone, hrest⟩ := hread looked hclock
    rw [← List.singleton_append, ← List.append_assoc] at hrest
    obtain ⟨_, _, told, rfl, hsent, htelling⟩ := elapses_append.mp hrest
    obtain ⟨own, mid', sent, rfl, hown, hpatch⟩ := elapses_append.mp hsent
    have haside := Act.Aside.of_isReading (hchange _ _ _) changed
    have hprepared : Punctual limit now (begun ++ own) mid' := hbegun.trans (.aside hown haside)
    have hstill : late limit (begun ++ own) = [] := by
      rw [late_append, hnone, late_eq_nil_of_aside hown haside]
      rfl
    rw [← List.append_assoc, ← List.append_assoc]
    exact (hprepared.patched hahead hstill hpatch).trans (.aside htelling (htold _))

/-- Under a deadline an update reads before it only, and at most one of its patches is late. -/
theorem modify_punctual {l : Ledger} {r : Except Fault (Bool × σ)} (left : Nat)
    (hchange : ∀ labels annotations st, ((change labels annotations).run st).run.Within Request.IsReading)
    (h : Course ((l.modify space operation (some limit) change left).run st).run acts r)
    (hclock : Elapses now acts timed later) : Punctual limit now timed later := by
  induction left generalizing st acts now timed with
  | zero =>
    obtain ⟨rfl, -⟩ := modify_course_zero h
    exact .aside hclock (List.forall_mem_singleton.mpr (.told _))
  | succ left ih =>
    rcases modify_course_succ h with ⟨parts, htried⟩ | ⟨first, parts, st₁, rest, rfl, htried, hrest⟩
    · exact htried.punctual hchange hclock
    · obtain ⟨_, mid, _, rfl, hfirst, hagain⟩ := elapses_append.mp hclock
      exact (htried.punctual hchange hfirst).trans (ih hrest hagain)

end Ledger
end NamespaceOwnership

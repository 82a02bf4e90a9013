import Mathlib.Data.List.Basic

/-! A mutex that is not recursive, and threads on which handlers run: a handler interrupts what stands below it on the
    stack of its thread, which may be inside the critical section of the mutex. -/

namespace Critical
variable {τ : Type*}

/-- What an activity of a thread has to do with the mutex. -/
inductive Phase where
  | outside
  /-- Its next step locks the mutex. -/
  | locking
  | holding
  deriving DecidableEq, Repr

/-- Nothing that locks or holds the mutex stands above an activity that holds it; the top comes first. -/
def Sound : List Phase → Prop
  | [] => True
  | p :: ps => (p ≠ .outside → Phase.holding ∉ ps) ∧ Sound ps

/-- A thread owns the mutex when an activity on its stack holds it, or when it has been cut off in one that did. -/
structure Stack (owner : Option τ) (t : τ) (cutOff : Prop) (ps : List Phase) : Prop where
  sound : Sound ps
  owned : Phase.holding ∈ ps → owner = some t
  owns : owner = some t → Phase.holding ∈ ps ∨ cutOff ∧ ∀ p ∈ ps, p = .outside

namespace Stack
variable {owner : Option τ} {t t' : τ} {cutOff cutOff' : Prop} {p : Phase} {ps : List Phase}

/-- The top does not wait for what its thread holds. -/
theorem not_owner_of_locking (h : Stack owner t cutOff (.locking :: ps)) : owner ≠ some t := by
  intro howner
  rcases h.owns howner with hmem | ⟨-, hout⟩
  · rcases List.mem_cons.mp hmem with htop | hbelow
    · cases htop
    · exact h.sound.1 nofun hbelow
  · cases hout _ List.mem_cons_self

theorem not_owner (h : Stack owner t cutOff ps) (hcut : ¬ cutOff) (hps : Phase.holding ∉ ps) : owner ≠ some t := by
  intro howner
  rcases h.owns howner with hmem | ⟨hcutOff, -⟩
  · exact hps hmem
  · exact hcut hcutOff

theorem push (h : Stack owner t cutOff ps) : Stack owner t cutOff (.outside :: ps) where
  sound := ⟨fun hne => absurd rfl hne, h.sound⟩
  owned hmem := h.owned ((List.mem_cons.mp hmem).resolve_left nofun)
  owns howner := by
    rcases h.owns howner with hmem | ⟨hcutOff, hout⟩
    · exact .inl (List.mem_cons_of_mem _ hmem)
    · exact .inr ⟨hcutOff, List.forall_mem_cons.mpr ⟨rfl, hout⟩⟩

theorem pop (h : Stack owner t cutOff (.outside :: ps)) : Stack owner t cutOff ps where
  sound := h.sound.2
  owned hmem := h.owned (List.mem_cons_of_mem _ hmem)
  owns howner := by
    rcases h.owns howner with hmem | ⟨hcutOff, hout⟩
    · exact .inl ((List.mem_cons.mp hmem).resolve_left nofun)
    · exact .inr ⟨hcutOff, (List.forall_mem_cons.mp hout).2⟩

/-- The top goes on to lock the mutex, on a thread that does not own it. -/
theorem enter (h : Stack owner t cutOff (.outside :: ps)) (howner : owner ≠ some t) :
    Stack owner t cutOff (.locking :: ps) where
  sound := ⟨fun _ hmem => howner (h.owned (List.mem_cons_of_mem _ hmem)), h.sound.2⟩
  owned hmem := h.owned (List.mem_cons_of_mem _ ((List.mem_cons.mp hmem).resolve_left nofun))
  owns h' := absurd h' howner

theorem acquire (h : Stack owner t cutOff (.locking :: ps)) : Stack (some t) t cutOff (.holding :: ps) where
  sound := ⟨fun _ => h.sound.1 nofun, h.sound.2⟩
  owned _ := rfl
  owns _ := .inl List.mem_cons_self

theorem release (h : Stack owner t cutOff (.holding :: ps)) : Stack none t cutOff (.outside :: ps) where
  sound := ⟨fun hne => absurd rfl hne, h.sound.2⟩
  owned hmem := absurd ((List.mem_cons.mp hmem).resolve_left nofun) (h.sound.1 nofun)
  owns := nofun

/-- The mutex goes from one owner to another, and neither is this thread. -/
theorem other {owner' : Option τ} (h : Stack owner t cutOff ps) (hfrom : owner ≠ some t) (hto : owner' ≠ some t) :
    Stack owner' t cutOff ps where
  sound := h.sound
  owned hmem := absurd (h.owned hmem) hfrom
  owns howner := absurd howner hto

/-- What stands at the bottom of the stack goes on to lock the mutex. -/
theorem enterBelow (h : Stack owner t cutOff (ps ++ [.outside])) (hcut : ¬ cutOff) :
    Stack owner t cutOff (ps ++ [.locking]) where
  sound := by
    have hsound := h.sound
    clear h
    induction ps with
    | nil => exact ⟨fun _ => List.not_mem_nil, trivial⟩
    | cons p ps ih =>
      refine ⟨fun hne hmem => hsound.1 hne ?_, ih hsound.2⟩
      rcases List.mem_append.mp hmem with hmem | hmem
      · exact List.mem_append_left _ hmem
      · cases List.mem_singleton.mp hmem
  owned hmem := by
    rcases List.mem_append.mp hmem with hmem | hmem
    · exact h.owned (List.mem_append_left _ hmem)
    · cases List.mem_singleton.mp hmem
  owns howner := by
    rcases h.owns howner with hmem | ⟨hcutOff, -⟩
    · rcases List.mem_append.mp hmem with hmem | hmem
      · exact .inl (List.mem_append_left _ hmem)
      · cases List.mem_singleton.mp hmem
    · exact absurd hcutOff hcut

theorem mono (h : Stack owner t cutOff ps) (hsub : cutOff → cutOff') : Stack owner t cutOff' ps where
  sound := h.sound
  owned := h.owned
  owns howner := (h.owns howner).imp_right (And.imp_left hsub)

theorem outside (howner : owner ≠ some t) : Stack owner t cutOff [.outside] where
  sound := ⟨fun hne => absurd rfl hne, trivial⟩
  owned hmem := nomatch List.mem_singleton.mp hmem
  owns h := absurd h howner

/-- A thread that is cut off leaves the mutex as it is. -/
theorem cut (owner : Option τ) (t : τ) : Stack owner t True [.outside] where
  sound := ⟨fun hne => absurd rfl hne, trivial⟩
  owned hmem := nomatch List.mem_singleton.mp hmem
  owns _ := .inr ⟨trivial, fun _ hmem => List.mem_singleton.mp hmem⟩

end Stack

end Critical

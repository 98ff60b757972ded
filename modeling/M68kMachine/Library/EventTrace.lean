import M68kMachine.Library.Transition

/-!
# What a transition system emits

A step may emit events. What each step says about the events it emits, a run says about all of
them, as long as two such statements compose.

* `emitted_induction` — the run rule
* `fifo_append` — composing two steps of a first-in first-out store
* `lossy_append` — of one that may lose entries, but keeps the order of the others
* `Gated` — a place for one: between two events that take it there is one that frees it
* `Guarded` — events that need the place to be free
-/

namespace Transition

variable {σ ο ε α : Type*}

/-- The events of a run, in order. -/
def emitted (step : σ → ο → σ) (emit : σ → ο → List ε) : σ → List ο → List ε
  | _, [] => []
  | s, o :: ops => emit s o ++ emitted step emit (step s o) ops

/-- **The run rule.** What every step relates, and composes, is related along every run. -/
theorem emitted_induction {step : σ → ο → σ} {emit : σ → ο → List ε} {R : σ → List ε → σ → Prop}
    (hnil : ∀ s, R s [] s) (hstep : ∀ s o, R s (emit s o) (step s o))
    (happend : ∀ {s s' s'' es es'}, R s es s' → R s' es' s'' → R s (es ++ es') s'') :
    ∀ (s : σ) (ops : List ο), R s (emitted step emit s ops) (run step s ops)
  | s, [] => hnil s
  | s, o :: ops => happend (hstep s o) (emitted_induction hnil hstep happend (step s o) ops)

/-- **First in, first out.** What was held and entered is what left and is held. -/
theorem fifo_append {held held' held'' entered entered' left left' : List α}
    (h : held ++ entered = left ++ held') (h' : held' ++ entered' = left' ++ held'') :
    held ++ (entered ++ entered') = (left ++ left') ++ held'' := by
  rw [← List.append_assoc, h, List.append_assoc, h', List.append_assoc]

/-- **First in, first out, but for what is lost.** -/
theorem lossy_append {held held' held'' entered entered' left left' : List α}
    (h : List.Sublist (left ++ held') (held ++ entered))
    (h' : List.Sublist (left' ++ held'') (held' ++ entered')) :
    List.Sublist ((left ++ left') ++ held'') (held ++ (entered ++ entered')) := by
  have hlast : List.Sublist (left ++ (left' ++ held'')) (left ++ (held' ++ entered')) :=
    h'.append_left left
  have hfirst : List.Sublist (left ++ held' ++ entered') (held ++ entered ++ entered') :=
    h.append_right entered'
  rw [List.append_assoc, ← List.append_assoc held]
  rw [← List.append_assoc left held'] at hlast
  exact hlast.trans hfirst

/-! ## A place for one -/

section Gate

variable (takes frees : ε → Bool)

/-- Whether the place is taken after an event. -/
def gate (full : Bool) (e : ε) : Bool := if takes e then true else if frees e then false else full

/-- No event takes the place while it is taken. -/
def Gated : Bool → List ε → Prop
  | _, [] => True
  | full, e :: es => (takes e = true → full = false) ∧ Gated (gate takes frees full e) es

variable {takes frees} {es : List ε}

theorem gated_append {es' : List ε} : ∀ {full : Bool},
    Gated takes frees full (es ++ es') ↔
      Gated takes frees full es ∧ Gated takes frees (es.foldl (gate takes frees) full) es' := by
  induction es with
  | nil => simp [Gated]
  | cons e es ih =>
    intro full
    simp only [List.cons_append, Gated, List.foldl_cons, ih, and_assoc]

/-- A taken place is free again only after an event that frees it. -/
theorem exists_frees (h : es.foldl (gate takes frees) true = false) : ∃ e ∈ es, frees e = true := by
  induction es with
  | nil => cases h
  | cons e es ih =>
    by_cases hfrees : frees e = true
    · exact ⟨e, List.mem_cons_self, hfrees⟩
    · have hgate : gate takes frees true e = true := by simp [gate, hfrees]
      rw [List.foldl_cons, hgate] at h
      obtain ⟨e', hmem, he'⟩ := ih h
      exact ⟨e', List.mem_cons_of_mem e hmem, he'⟩

/-- **Between two events that take the place there is one that frees it.** -/
theorem Gated.between {full : Bool} {before mid after : List ε} {e e' : ε}
    (h : Gated takes frees full (before ++ e :: (mid ++ e' :: after)))
    (he : takes e = true) (he' : takes e' = true) : ∃ x ∈ mid, frees x = true := by
  obtain ⟨-, -, hrest⟩ := gated_append.mp h
  obtain ⟨-, hnext, -⟩ := gated_append.mp hrest
  have hgate : ∀ b : Bool, gate takes frees b e = true := by
    intro b
    simp [gate, he]
  rw [hgate] at hnext
  exact exists_frees (hnext he')

/-! ## What needs the place to be free -/

variable (takes frees)

/-- No event of a kind happens while the place is taken. -/
def Guarded (needs : ε → Bool) : Bool → List ε → Prop
  | _, [] => True
  | full, e :: es => (needs e = true → full = false) ∧ Guarded needs (gate takes frees full e) es

variable {takes frees} {needs : ε → Bool}

theorem guarded_append {es' : List ε} : ∀ {full : Bool},
    Guarded takes frees needs full (es ++ es') ↔
      Guarded takes frees needs full es ∧
        Guarded takes frees needs (es.foldl (gate takes frees) full) es' := by
  induction es with
  | nil => simp [Guarded]
  | cons e es ih =>
    intro full
    simp only [List.cons_append, Guarded, List.foldl_cons, ih, and_assoc]

theorem guarded_of_needless (h : ∀ e ∈ es, needs e = false) :
    ∀ full, Guarded takes frees needs full es := by
  induction es with
  | nil => intro _; trivial
  | cons e es ih =>
    intro full
    refine ⟨fun he => ?_, ih (fun e' he' => h e' (List.mem_cons_of_mem _ he')) _⟩
    rw [h e List.mem_cons_self] at he
    cases he

/-- A place that no event takes stays free. -/
theorem gate_idle (h : ∀ e ∈ es, takes e = false) : es.foldl (gate takes frees) false = false := by
  induction es with
  | nil => rfl
  | cons e es ih =>
    have hgate : gate takes frees false e = false := by
      simp [gate, h e List.mem_cons_self]
    rw [List.foldl_cons, hgate]
    exact ih fun e' he' => h e' (List.mem_cons_of_mem _ he')

/-- A place that no event frees stays taken. -/
theorem gate_busy (h : ∀ e ∈ es, frees e = false) : es.foldl (gate takes frees) true = true := by
  by_contra hfree
  obtain ⟨e, he, hfrees⟩ := exists_frees (Bool.eq_false_iff.mpr hfree)
  rw [h e he] at hfrees
  cases hfrees

/-- Nothing that needs the place happens in a trace that does not free it. -/
theorem not_guarded_of_busy {e : ε} (hmem : e ∈ es) (hneeds : needs e = true)
    (hbusy : ∀ x ∈ es, frees x = false) : ¬Guarded takes frees needs true es := by
  intro h
  obtain ⟨before, after, rfl⟩ := List.append_of_mem hmem
  obtain ⟨-, hat, -⟩ := guarded_append.mp h
  have hfull : before.foldl (gate takes frees) true = true :=
    gate_busy fun x hx => hbusy x (List.mem_append_left _ hx)
  have hfree := hat hneeds
  rw [hfull] at hfree
  cases hfree

/-- The event that took a place nothing has freed. -/
theorem exists_takes {full : Bool} (h : es.foldl (gate takes frees) full = true) :
    (full = true ∧ ∀ e ∈ es, frees e = false) ∨
      ∃ before e after, es = before ++ e :: after ∧ takes e = true ∧
        ∀ e' ∈ after, frees e' = false := by
  induction es generalizing full with
  | nil => exact .inl ⟨h, by simp⟩
  | cons e es ih =>
    rw [List.foldl_cons] at h
    rcases ih h with ⟨hfull, hnone⟩ | ⟨before, e', after, rfl, he', hnone⟩
    · cases htakes : takes e with
      | true => exact .inr ⟨[], e, es, rfl, htakes, hnone⟩
      | false =>
        cases hfrees : frees e with
        | true => simp [gate, htakes, hfrees] at hfull
        | false =>
          refine .inl ⟨by simpa [gate, htakes, hfrees] using hfull, ?_⟩
          intro x hx
          rcases List.mem_cons.mp hx with rfl | hx
          · exact hfrees
          · exact hnone x hx
    · exact .inr ⟨e :: before, e', after, rfl, he', hnone⟩

/-- The place is free if and only if every event that took it was followed by one freeing it. -/
theorem gate_free_iff :
    es.foldl (gate takes frees) false = false ↔
      ∀ before e after, es = before ++ e :: after → takes e = true →
        ∃ x ∈ after, frees x = true := by
  constructor
  · rintro h before e after rfl he
    have hgate : ∀ full, gate takes frees full e = true := by
      intro full
      simp [gate, he]
    rw [List.foldl_append, List.foldl_cons, hgate] at h
    exact exists_frees h
  · intro h
    by_contra hbusy
    rcases exists_takes (Bool.not_eq_false _ ▸ hbusy) with
      ⟨hfull, -⟩ | ⟨before, e, after, hsplit, he, hnone⟩
    · cases hfull
    · obtain ⟨x, hx, hfrees⟩ := h before e after hsplit he
      rw [hnone x hx] at hfrees
      cases hfrees

/-- **What is guarded happens only when every taking of the place was followed by a freeing.** -/
theorem guarded_iff :
    Guarded takes frees needs false es ↔
      ∀ before e after, es = before ++ e :: after → needs e = true →
        ∀ before' t mid, before = before' ++ t :: mid → takes t = true →
          ∃ x ∈ mid, frees x = true := by
  constructor
  · rintro h before e after rfl he
    obtain ⟨-, hat, -⟩ := guarded_append.mp h
    exact gate_free_iff.mp (hat he)
  · intro h
    -- from any place of the trace on
    have hfrom : ∀ rest before : List ε, es = before ++ rest →
        Guarded takes frees needs (before.foldl (gate takes frees) false) rest := by
      intro rest
      induction rest with
      | nil => intro _ _; trivial
      | cons e rest ih =>
        intro before hsplit
        refine ⟨fun he => gate_free_iff.mpr (h before e rest hsplit he), ?_⟩
        have := ih (before ++ [e]) (by simpa using hsplit)
        rwa [List.foldl_append, List.foldl_cons, List.foldl_nil] at this
    exact hfrom es [] rfl

end Gate

end Transition

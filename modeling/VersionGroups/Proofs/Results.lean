import Mathlib.Data.List.Forall2

/-!
# Results of steps taken in order

A computation that can fail is taken apart at each of its steps. A fold over a list keeps what each
step keeps, where a step may use which members were taken before it; if the fold fails, some step
failed in a state that had kept it. A fold whose steps cannot fail succeeds, one whose steps fail at
certain members fails exactly if it comes to one, and folds whose steps are alike come to the same.
Steps at all members of a list succeed together exactly if each does. What a search finds in a list
in order stands before all else that it could have found.
-/
namespace VersionGroups

variable {ε α β : Type}

theorem bind_eq_ok {x : Except ε α} {f : α → Except ε β} {b : β} :
    x >>= f = .ok b ↔ ∃ a, x = .ok a ∧ f a = .ok b := by
  cases x <;> simp [bind, Except.bind]

theorem bind_eq_error {x : Except ε α} {f : α → Except ε β} {e : ε} :
    x >>= f = .error e ↔ x = .error e ∨ ∃ a, x = .ok a ∧ f a = .error e := by
  cases x <;> simp [bind, Except.bind]

theorem map_eq_ok {x : Except ε α} {f : α → β} {b : β} :
    x.map f = .ok b ↔ ∃ a, x = .ok a ∧ f a = b := by
  cases x <;> simp [Except.map]

theorem eq_ok_of_toOption {x : Except ε α} {a : α} (h : x.toOption = some a) : x = .ok a := by
  cases x with
  | ok b => exact congrArg Except.ok (Option.some.inj h)
  | error e => cases h

theorem exists_ok_of_toBool {x : Except ε α} (h : x.toBool = true) : ∃ a, x = .ok a := by
  cases x with
  | ok a => exact ⟨a, rfl⟩
  | error e => cases h

section
variable {step : β → α → Except ε β} {all : List α} {keeps : List α → β → Prop}

/-- What every step keeps holds after a fold over the rest of a list. -/
theorem foldlM_keeps
    (hstep : ∀ before a after s s', all = before ++ a :: after → keeps before s →
      step s a = .ok s' → keeps (before ++ [a]) s')
    {before rest : List α} {s s' : β} (hall : all = before ++ rest) (hs : keeps before s)
    (h : rest.foldlM step s = .ok s') : keeps all s' := by
  induction rest generalizing before s with
  | nil =>
      obtain rfl := Except.ok.inj h
      rwa [hall, List.append_nil]
  | cons a rest ih =>
      rw [List.foldlM_cons] at h
      obtain ⟨t, ht, hrest⟩ := bind_eq_ok.mp h
      exact ih (by rw [hall, List.append_assoc]; rfl) (hstep before a rest s t hall hs ht) hrest

/-- If a fold fails, then it fails at a member, in a state that earlier steps have kept. -/
theorem foldlM_fails
    (hstep : ∀ before a after s s', all = before ++ a :: after → keeps before s →
      step s a = .ok s' → keeps (before ++ [a]) s')
    {before rest : List α} {s : β} {e : ε} (hall : all = before ++ rest) (hs : keeps before s)
    (h : rest.foldlM step s = .error e) :
    ∃ before a after s, all = before ++ a :: after ∧ keeps before s ∧ step s a = .error e := by
  induction rest generalizing before s with
  | nil => cases h
  | cons a rest ih =>
      rw [List.foldlM_cons] at h
      rcases bind_eq_error.mp h with ha | ⟨t, ht, hrest⟩
      · exact ⟨before, a, rest, s, hall, hs, ha⟩
      · exact ih (by rw [hall, List.append_assoc]; rfl) (hstep before a rest s t hall hs ht) hrest

theorem exists_error_of_foldlM {l : List α} {s : β} {e : ε} (h : l.foldlM step s = .error e) :
    ∃ a s, step s a = .error e := by
  obtain ⟨-, a, -, s, -, -, hstep⟩ := @foldlM_fails _ _ _ step l (fun _ _ => True)
    (fun _ _ _ _ _ _ _ _ => trivial) [] l s e rfl trivial h
  exact ⟨a, s, hstep⟩

/-- A fold whose steps fail at certain members, in any state, fails exactly if it comes to one. -/
theorem foldlM_isError_iff {bad : α → Prop}
    (hstep : ∀ s a, (∃ e, step s a = .error e) ↔ bad a) {l : List α} {s : β} :
    (∃ e, l.foldlM step s = .error e) ↔ ∃ a ∈ l, bad a := by
  induction l generalizing s with
  | nil => simp [pure, Except.pure]
  | cons a rest ih =>
      rw [List.foldlM_cons, List.exists_mem_cons_iff, ← hstep s a]
      cases step s a with
      | error e => simp [bind, Except.bind]
      | ok t => simpa [bind, Except.bind] using ih

/-- Folds come to the same if their steps are alike in every state that earlier steps have kept. -/
theorem foldlM_congr_of_keeps {step' : β → α → Except ε β}
    (hstep : ∀ before a after s s', all = before ++ a :: after → keeps before s →
      step s a = .ok s' → keeps (before ++ [a]) s')
    (hsame : ∀ before a after s, all = before ++ a :: after → keeps before s →
      step s a = step' s a)
    {before rest : List α} {s : β} (hall : all = before ++ rest) (hs : keeps before s) :
    rest.foldlM step s = rest.foldlM step' s := by
  induction rest generalizing before s with
  | nil => rfl
  | cons a rest ih =>
      rw [List.foldlM_cons, List.foldlM_cons, ← hsame before a rest s hall hs]
      cases ht : step s a with
      | error e => rfl
      | ok t => exact ih (by rw [hall, List.append_assoc]; rfl) (hstep before a rest s t hall hs ht)

/-- A fold succeeds if every step does in any state that earlier steps may have left. -/
theorem foldlM_succeeds (inv : β → Prop) {l : List α} {s : β} (hs : inv s)
    (hstep : ∀ a ∈ l, ∀ s, inv s → ∃ s', step s a = .ok s' ∧ inv s') :
    ∃ s', l.foldlM step s = .ok s' := by
  induction l generalizing s with
  | nil => exact ⟨s, rfl⟩
  | cons a rest ih =>
      obtain ⟨ha, hrest⟩ := List.forall_mem_cons.mp hstep
      obtain ⟨t, ht, hinv⟩ := ha s hs
      obtain ⟨s', hs'⟩ := ih hinv hrest
      exact ⟨s', by rw [List.foldlM_cons, ht]; exact hs'⟩

end

/-- A part of the state that every step takes by itself is what the fold takes by itself. -/
theorem map_foldlM {γ : Type} {f : β → α → Except ε β} {g : γ → α → Except ε γ} {part : β → γ}
    (h : ∀ s a, (f s a).map part = g (part s) a) (l : List α) (s : β) :
    (l.foldlM f s).map part = l.foldlM g (part s) := by
  induction l generalizing s with
  | nil => rfl
  | cons a rest ih =>
      rw [List.foldlM_cons, List.foldlM_cons, ← h]
      cases f s a with
      | error e => rfl
      | ok t => exact ih t

/-- Steps that are alike on the members of a list make alike folds. -/
theorem foldlM_congr {f g : β → α → Except ε β} {l : List α} (h : ∀ a ∈ l, ∀ s, f s a = g s a)
    (s : β) : l.foldlM f s = l.foldlM g s := by
  induction l generalizing s with
  | nil => rfl
  | cons a rest ih =>
      obtain ⟨ha, hrest⟩ := List.forall_mem_cons.mp h
      rw [List.foldlM_cons, List.foldlM_cons, ha]
      exact bind_congr fun t => ih hrest t

/-- In a list in order, what is found stands before all else that could have been found. -/
theorem rel_of_find? {l : List α} {r : α → α → Prop} {test : α → Bool} {a b : α}
    (h : l.Pairwise r) (ha : l.find? test = some a) (hb : b ∈ l) (htest : test b = true) :
    a = b ∨ r a b := by
  obtain ⟨-, before, after, rfl, hbefore⟩ := List.find?_eq_some_iff_append.mp ha
  rcases List.mem_append.mp hb with hb | hb
  · exact absurd htest (by simpa using hbefore b hb)
  · rcases List.mem_cons.mp hb with rfl | hb
    · exact .inl rfl
    · exact .inr ((List.pairwise_cons.mp (List.pairwise_append.mp h).2.1).1 b hb)

/-- Steps that are taken at every member of a list succeed exactly if each of them does. -/
theorem mapM_eq_ok {f : α → Except ε β} {l : List α} {result : List β} :
    l.mapM f = .ok result ↔ l.map f = result.map .ok := by
  induction l generalizing result with
  | nil => cases result <;> simp [pure, Except.pure]
  | cons a rest ih =>
      rw [List.mapM_cons, bind_eq_ok, List.map_cons]
      constructor
      · rintro ⟨b, hb, h⟩
        obtain ⟨others, hothers, h⟩ := bind_eq_ok.mp h
        obtain rfl := Except.ok.inj h
        rw [List.map_cons, hb, ih.mp hothers]
      · intro h
        obtain ⟨b, others, rfl, hb, hothers⟩ := List.map_eq_cons_iff.mp h.symm
        exact ⟨b, hb.symm, bind_eq_ok.mpr ⟨others, ih.mpr hothers.symm, rfl⟩⟩

theorem mem_of_map_eq_ok {f : α → Except ε β} {l : List α} {result : List β}
    (h : l.map f = result.map .ok) {b : β} (hb : b ∈ result) : ∃ a ∈ l, f a = .ok b :=
  List.mem_map.mp (h ▸ List.mem_map_of_mem hb)

theorem exists_map_eq_ok {f : α → Except ε β} {l : List α} (h : ∀ a ∈ l, ∃ b, f a = .ok b) :
    ∃ result : List β, l.map f = result.map .ok := by
  induction l with
  | nil => exact ⟨[], rfl⟩
  | cons a rest ih =>
      obtain ⟨⟨b, hb⟩, hrest⟩ := List.forall_mem_cons.mp h
      obtain ⟨others, hothers⟩ := ih hrest
      exact ⟨b :: others, by rw [List.map_cons, List.map_cons, hb, hothers]⟩

theorem exists_of_forall₂ {γ δ : Type} {r : γ → δ → Prop} {as : List γ} {bs : List δ}
    (h : List.Forall₂ r as bs) {a : γ} (ha : a ∈ as) : ∃ b ∈ bs, r a b := by
  induction h with
  | nil => cases ha
  | cons hab _ ih =>
      rcases List.mem_cons.mp ha with rfl | ha
      · exact ⟨_, List.mem_cons_self, hab⟩
      · obtain ⟨b, hb, hab⟩ := ih ha
        exact ⟨b, List.mem_cons_of_mem _ hb, hab⟩

end VersionGroups

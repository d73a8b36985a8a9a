/-!
# Results of failing computations

Evaluation and parsing are chains of steps that may fail. These lemmas take such a chain apart: what
a chain came to tells what its steps came to.
-/

namespace RangeCalc.Result

variable {ε β γ : Type}

/-- A chain succeeds if its first step and what follows do. -/
theorem bind_eq_ok {x : Except ε β} {f : β → Except ε γ} {c : γ} :
    x >>= f = .ok c ↔ ∃ b, x = .ok b ∧ f b = .ok c := by
  cases x with
  | error e => exact ⟨nofun, fun ⟨_, h, _⟩ => nomatch h⟩
  | ok b =>
    refine ⟨fun h => ⟨b, rfl, h⟩, ?_⟩
    rintro ⟨_, ⟨⟩, h⟩
    exact h

/-- A chain fails where its first step or what follows does. -/
theorem bind_eq_error {x : Except ε β} {f : β → Except ε γ} {e : ε} :
    x >>= f = .error e ↔ x = .error e ∨ ∃ b, x = .ok b ∧ f b = .error e := by
  cases x with
  | error e' =>
    constructor
    · rintro ⟨⟩
      exact .inl rfl
    · rintro (⟨⟨⟩⟩ | ⟨_, h, _⟩)
      · rfl
      · cases h
  | ok b =>
    refine ⟨fun h => .inr ⟨b, rfl, h⟩, ?_⟩
    rintro (h | ⟨_, ⟨⟩, h⟩)
    · cases h
    · exact h

/-- A list of steps succeeds if each of them does. -/
theorem mapM_cons_eq_ok {f : β → Except ε γ} {b : β} {bs : List β} {cs : List γ} :
    (b :: bs).mapM f = .ok cs ↔ ∃ c cs', f b = .ok c ∧ bs.mapM f = .ok cs' ∧ cs = c :: cs' := by
  rw [List.mapM_cons, bind_eq_ok]
  constructor
  · rintro ⟨c, hc, h⟩
    obtain ⟨cs', hcs, ⟨⟩⟩ := bind_eq_ok.1 h
    exact ⟨c, cs', hc, hcs, rfl⟩
  · rintro ⟨c, cs', hc, hcs, rfl⟩
    exact ⟨c, hc, bind_eq_ok.2 ⟨cs', hcs, rfl⟩⟩

/-- In a list of steps that succeeds, each step does. -/
theorem exists_ok_of_mapM {f : β → Except ε γ} {bs : List β} {cs : List γ} (h : bs.mapM f = .ok cs)
    {b : β} (hb : b ∈ bs) : ∃ c, f b = .ok c := by
  induction bs generalizing cs with
  | nil => exact absurd hb List.not_mem_nil
  | cons b' bs ih =>
    obtain ⟨c, cs', hc, hcs, rfl⟩ := mapM_cons_eq_ok.1 h
    rcases List.mem_cons.1 hb with rfl | hb
    · exact ⟨c, hc⟩
    · exact ih hcs hb

/-- In a list of steps that succeeds, each result is that of a step. -/
theorem mem_of_mapM {f : β → Except ε γ} {bs : List β} {cs : List γ} (h : bs.mapM f = .ok cs)
    {c : γ} (hc : c ∈ cs) : ∃ b ∈ bs, f b = .ok c := by
  induction bs generalizing cs with
  | nil =>
    cases h
    exact absurd hc List.not_mem_nil
  | cons b bs ih =>
    obtain ⟨c', cs', hc', hcs, rfl⟩ := mapM_cons_eq_ok.1 h
    rcases List.mem_cons.1 hc with rfl | hc
    · exact ⟨b, List.mem_cons_self, hc'⟩
    · obtain ⟨b', mem, hb'⟩ := ih hcs hc
      exact ⟨b', List.mem_cons_of_mem b mem, hb'⟩

/-- A list of steps fails as one of them does. -/
theorem exists_error_of_mapM {f : β → Except ε γ} {bs : List β} {e : ε} (h : bs.mapM f = .error e) :
    ∃ b ∈ bs, f b = .error e := by
  induction bs with
  | nil => cases h
  | cons b bs ih =>
    rw [List.mapM_cons, bind_eq_error] at h
    rcases h with h | ⟨c, -, h⟩
    · exact ⟨b, List.mem_cons_self, h⟩
    · rcases bind_eq_error.1 h with h | ⟨_, _, h⟩
      · obtain ⟨b', mem, hb'⟩ := ih h
        exact ⟨b', List.mem_cons_of_mem b mem, hb'⟩
      · cases h

/-- Steps taken part by part, with the results of all parts put together. -/
theorem mapM_flatten {f : β → Except ε γ} {bss : List (List β)} {css : List (List γ)}
    (h : bss.mapM (fun bs => bs.mapM f) = .ok css) : bss.flatten.mapM f = .ok css.flatten := by
  induction bss generalizing css with
  | nil =>
    cases h
    rfl
  | cons bs bss ih =>
    obtain ⟨cs, css', hcs, hcss, rfl⟩ := mapM_cons_eq_ok.1 h
    rw [List.flatten_cons, List.mapM_append, hcs, List.flatten_cons, ih hcss]
    rfl

/-- A list of steps whose results go through further steps. -/
theorem mapM_bind {δ : Type} {f : β → Except ε γ} {g : γ → Except ε δ} {bs : List β} {cs : List γ}
    {ds : List δ} (hf : bs.mapM f = .ok cs) (hg : cs.mapM g = .ok ds) :
    (bs.mapM fun b => f b >>= g) = .ok ds := by
  induction bs generalizing cs ds with
  | nil =>
    cases hf
    exact hg
  | cons b bs ih =>
    obtain ⟨c, cs', hc, hcs, rfl⟩ := mapM_cons_eq_ok.1 hf
    obtain ⟨d, ds', hd, hds, rfl⟩ := mapM_cons_eq_ok.1 hg
    exact mapM_cons_eq_ok.2 ⟨d, ds', bind_eq_ok.2 ⟨c, hc, hd⟩, ih hcs hds, rfl⟩

/-- A list of steps, by the results of the single ones. -/
theorem mapM_eq_ofFn {f : β → Except ε γ} {bs : List β} {cs : Fin bs.length → γ}
    (h : ∀ i, f (bs.get i) = .ok (cs i)) : bs.mapM f = .ok (List.ofFn cs) := by
  induction bs with
  | nil => rfl
  | cons b bs ih =>
    rw [List.ofFn_succ]
    exact mapM_cons_eq_ok.2 ⟨_, _, h 0, ih fun i => h i.succ, rfl⟩

/-! ## Values without faults -/

/-- What a chain succeeds with, whatever it fails with. -/
theorem toOption_bind (x : Except ε β) (f : β → Except ε γ) :
    (x >>= f).toOption = x.toOption.bind fun b => (f b).toOption := by
  cases x <;> rfl

/-- Two lists of steps that succeed alike. -/
theorem toOption_mapM_congr {f g : β → Except ε γ} (h : ∀ b, (f b).toOption = (g b).toOption)
    (bs : List β) : (bs.mapM f).toOption = (bs.mapM g).toOption := by
  induction bs with
  | nil => rfl
  | cons b bs ih => simp only [List.mapM_cons, toOption_bind, h, ih]

end RangeCalc.Result

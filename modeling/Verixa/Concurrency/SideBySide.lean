import Verixa.Concurrency.Program

/-!
# Two stores side by side

Threads may work on two stores at once: the calls of each kind are answered from their own store
(`beside`).  A program that only knows the first store is a program over both (`Program.left`).

What the threads agree on is a protocol for each store and a link between the two.  When the link
survives whatever the first protocol lets others do, a program that keeps to the first protocol
keeps to both (`Safe.left`).
-/

namespace Concurrency

universe u u' v w

section SideBySide

variable {σ τ Ω Ω' : Type*} {Q : Type u} {Q' : Type u'} {A : Q → Type v} {A' : Q' → Type v}
  {γ : Type w}

/-- The program, where calls of a second kind may be made as well. -/
def Program.left : Program Q A γ → Program (Q ⊕ Q') (Sum.elim A A') γ
  | .ret a => .ret a
  | .call q k => .call (.inl q) fun r => (k r).left

/-- Each call is answered from the store of its kind. -/
def beside (serve : Server σ Ω Q A) (serve' : Server τ Ω' Q' A') :
    Server (σ × τ) (Ω ⊕ Ω') (Q ⊕ Q') (Sum.elim A A')
  | i, s, .inl q, .inl ω => (serve i s.1 q ω).map fun r => (r.1, r.2, s.2)
  | i, s, .inr q, .inr ω => (serve' i s.2 q ω).map fun r => (r.1, s.1, r.2)
  | _, _, _, _ => none

/-- A call on the first store leaves the second alone. -/
theorem beside_left {serve : Server σ Ω Q A} {serve' : Server τ Ω' Q' A'} {i : ℕ} {s t : σ × τ}
    {q : Q} {ω : Ω ⊕ Ω'} {r : A q} (h : beside serve serve' i s (.inl q) ω = some (r, t)) :
    ∃ ω', ω = .inl ω' ∧ serve i s.1 q ω' = some (r, t.1) ∧ t.2 = s.2 := by
  rcases ω with ω' | ω'
  · obtain ⟨⟨r', u⟩, hanswer, heq⟩ := Option.map_eq_some_iff.mp h
    cases heq
    exact ⟨ω', rfl, hanswer, rfl⟩
  · cases h

/-- A call on the second store leaves the first alone. -/
theorem beside_right {serve : Server σ Ω Q A} {serve' : Server τ Ω' Q' A'} {i : ℕ} {s t : σ × τ}
    {q : Q'} {ω : Ω ⊕ Ω'} {r : A' q} (h : beside serve serve' i s (.inr q) ω = some (r, t)) :
    ∃ ω', ω = .inr ω' ∧ serve' i s.2 q ω' = some (r, t.2) ∧ t.1 = s.1 := by
  rcases ω with ω' | ω'
  · cases h
  · obtain ⟨⟨r', u⟩, hanswer, heq⟩ := Option.map_eq_some_iff.mp h
    cases heq
    exact ⟨ω', rfl, hanswer, rfl⟩

/-- A condition on the calls of each kind. -/
def allowedBeside (allowed : ℕ → σ → Q → Ω → Prop) (allowed' : ℕ → τ → Q' → Ω' → Prop) :
    ℕ → σ × τ → Q ⊕ Q' → Ω ⊕ Ω' → Prop
  | i, s, .inl q, .inl ω => allowed i s.1 q ω
  | i, s, .inr q, .inr ω => allowed' i s.2 q ω
  | _, _, _, _ => True

/-- Both protocols, and a link between the stores. -/
def Protocol.beside (K : Protocol σ) (K' : Protocol τ) (link : σ → τ → Prop) :
    Protocol (σ × τ) where
  inv s := K.inv s.1 ∧ K'.inv s.2 ∧ link s.1 s.2
  rely i s t := K.rely i s.1 t.1 ∧ K'.rely i s.2 t.2
  rely_refl i s := ⟨K.rely_refl i s.1, K'.rely_refl i s.2⟩
  rely_trans i _ _ _ hst htu :=
    ⟨K.rely_trans i _ _ _ hst.1 htu.1, K'.rely_trans i _ _ _ hst.2 htu.2⟩

variable {K : Protocol σ} {K' : Protocol τ} {link : σ → τ → Prop} {serve : Server σ Ω Q A}
  {serve' : Server τ Ω' Q' A'} {allowed : ℕ → σ → Q → Ω → Prop}
  {allowed' : ℕ → τ → Q' → Ω' → Prop} {i : ℕ} {s : σ} {x : τ}

/-- A call on the first store. -/
theorem safe_callLeft {post : σ × τ → γ → Prop} {q : Q}
    {k : A q → Program (Q ⊕ Q') (Sum.elim A A') γ}
    (hlink : ∀ j s t x, K.rely j s t → link s x → link t x)
    (h : ∀ t y ω r u, K.rely i s t → K'.rely i x y → K.inv t → allowed i t q ω →
      serve i t q ω = some (r, u) → K.inv u ∧ (∀ j, j ≠ i → K.rely j t u) ∧
        Safe (K.beside K' link) (beside serve serve') (allowedBeside allowed allowed') i post (k r)
          (u, y)) :
    Safe (K.beside K' link) (beside serve serve') (allowedBeside allowed allowed') i post
      (.call (.inl q) k) (s, x) := by
  rintro ⟨t, y⟩ ω r ⟨u, z⟩ ⟨hst, hxy⟩ ⟨hinv, hinv', hlinked⟩ hallowed hserve
  obtain ⟨ω', rfl, hanswer, rfl⟩ := beside_left hserve
  obtain ⟨hkept, hothers, hsafe⟩ := h t z ω' r u hst hxy hinv hallowed hanswer
  refine ⟨⟨hkept, hinv', ?_⟩, fun j hj => ⟨hothers j hj, K'.rely_refl j z⟩, hsafe⟩
  -- any thread but the caller relies on the step
  exact hlink (i + 1) t u z (hothers (i + 1) (by omega)) hlinked

/-- A call on the second store. -/
theorem safe_callRight {post : σ × τ → γ → Prop} {q : Q'}
    {k : A' q → Program (Q ⊕ Q') (Sum.elim A A') γ}
    (h : ∀ t y ω r u, K.rely i s t → K'.rely i x y → K.inv t → K'.inv y → link t y →
      allowed' i y q ω → serve' i y q ω = some (r, u) →
        K'.inv u ∧ link t u ∧ (∀ j, j ≠ i → K'.rely j y u) ∧
        Safe (K.beside K' link) (beside serve serve') (allowedBeside allowed allowed') i post (k r)
          (t, u)) :
    Safe (K.beside K' link) (beside serve serve') (allowedBeside allowed allowed') i post
      (.call (.inr q) k) (s, x) := by
  rintro ⟨t, y⟩ ω r ⟨u, z⟩ ⟨hst, hxy⟩ ⟨hinv, hinv', hlinked⟩ hallowed hserve
  obtain ⟨ω', rfl, hanswer, rfl⟩ := beside_right hserve
  obtain ⟨hkept, hlinked', hothers, hsafe⟩ :=
    h u y ω' r z hst hxy hinv hinv' hlinked hallowed hanswer
  exact ⟨⟨hinv, hkept, hlinked'⟩, fun j hj => ⟨K.rely_refl j u, hothers j hj⟩, hsafe⟩

/-- A program that keeps to the first protocol keeps to both. -/
theorem Safe.left {post : σ → γ → Prop} {p : Program Q A γ}
    (hlink : ∀ j s t x, K.rely j s t → link s x → link t x)
    (h : Safe K serve allowed i post p s) :
    Safe (K.beside K' link) (beside serve serve') (allowedBeside allowed allowed') i
      (fun t a => post t.1 a) p.left (s, x) := by
  induction p generalizing s x with
  | ret a => exact fun t ht hinv => h t.1 ht.1 hinv.1
  | call q k ih =>
    refine safe_callLeft hlink fun t y ω r u hst _ hinv hallowed hserve => ?_
    obtain ⟨hkept, hothers, hsafe⟩ := h t ω r u hst hinv hallowed hserve
    exact ⟨hkept, hothers, ih r hsafe⟩

end SideBySide

end Concurrency

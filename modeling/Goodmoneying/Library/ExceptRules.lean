import Mathlib.Data.List.Basic
import Mathlib.Data.List.Induction

/-!
# When a fallible computation succeeds

Computations in `Except ε`: a sequence succeeds exactly when its parts do
(`bind_eq_ok`), a guard exactly when its condition holds (`guard_eq_ok`), and a loop over
a list exactly when every round does (`mapM_isOk_iff`).
-/

namespace Goodmoneying.Library

open List

variable {ε α β : Type}
variable {x : Except ε α} {f g : α → Except ε β} {b : β} {a : α} {e : ε} {l : List α}
  {results : List β}

/-- A sequence returns exactly when both parts do. -/
theorem bind_eq_ok : x >>= f = .ok b ↔ ∃ a, x = .ok a ∧ f a = .ok b := by
  cases x with
  | error e => simp [bind, Except.bind]
  | ok a => simp [bind, Except.bind]

/-- A computation goes on where its check has passed. -/
theorem check_eq_ok {check : Except ε Unit} {rest : Except ε β} :
    (check >>= fun _ => rest) = .ok b ↔ check = .ok () ∧ rest = .ok b := by
  cases check with
  | error e => simp [bind, Except.bind]
  | ok a => simp [bind, Except.bind]

theorem map_eq_ok {f : α → β} : f <$> x = .ok b ↔ ∃ a, x = .ok a ∧ f a = b := by
  cases x with
  | error e => simp [Functor.map, Except.map]
  | ok a => simp [Functor.map, Except.map]

@[simp] theorem ok_bind (a : α) (f : α → Except ε β) : (Except.ok a >>= f) = f a := rfl

@[simp] theorem error_bind (e : ε) (f : α → Except ε β) :
    ((Except.error e : Except ε α) >>= f) = .error e := rfl

@[simp] theorem pure_eq_ok {b : α} : (pure a : Except ε α) = .ok b ↔ a = b := by
  simp [pure, Except.pure]

/-- A computation that raises first when `p` holds succeeds exactly when `p` does not hold
and the rest succeeds. -/
theorem guard_eq_ok {p : Prop} [Decidable p] {f : β → Except ε α} :
    (if p then throw e >>= f else x) = .ok a ↔ ¬ p ∧ x = .ok a := by
  by_cases hp : p
  · simp [hp, throw, throwThe, MonadExceptOf.throw]
  · simp [hp]

/-- Where no part raises `e`, the sequence does not. -/
theorem bind_ne_error (hx : x ≠ .error e) (hf : ∀ a, f a ≠ .error e) : x >>= f ≠ .error e := by
  cases x with
  | error e' => exact fun h => hx (congrArg Except.error (Except.error.inj h))
  | ok a => exact hf a

/-- Where no round raises `e`, the loop does not. -/
theorem foldlM_ne_error {f : β → α → Except ε β} (hf : ∀ b a, f b a ≠ .error e) (l : List α)
    (b : β) : l.foldlM f b ≠ .error e := by
  induction l generalizing b with
  | nil => simp [pure, Except.pure]
  | cons a l ih => exact bind_ne_error (hf b a) fun b => ih b

@[simp] theorem mem_toOption : a ∈ x.toOption ↔ x = .ok a := by
  cases x <;> simp [Except.toOption]

theorem exists_ok_of_isOk (h : x.isOk = true) : ∃ a, x = .ok a := by
  cases x with
  | error e => simp [Except.isOk, Except.toBool] at h
  | ok a => exact ⟨a, rfl⟩

/-- Rounds that agree make loops that agree. -/
theorem mapM_congr (h : ∀ a ∈ l, f a = g a) : l.mapM f = l.mapM g := by
  induction l with
  | nil => rfl
  | cons a l ih =>
    rw [mapM_cons, mapM_cons, h a mem_cons_self, ih fun b hb => h b (mem_cons_of_mem a hb)]

/-- Loops whose rounds raise the same exceptions raise the same exception. -/
theorem mapM_eq_error_of_errors (hfg : ∀ a e, f a = .error e → g a = .error e)
    (hgf : ∀ a e, g a = .error e → f a = .error e) (h : l.mapM f = .error e) :
    l.mapM g = .error e := by
  induction l with
  | nil => cases h
  | cons a l ih =>
    rw [mapM_cons] at h ⊢
    cases hf : f a with
    | error e' =>
      rw [hf] at h
      rw [hfg a e' hf]
      exact h
    | ok b =>
      rw [hf, ok_bind] at h
      cases hg : g a with
      | error e' =>
        rw [hgf a e' hg] at hf
        cases hf
      | ok b' =>
        cases hrest : l.mapM f with
        | ok bs =>
          rw [hrest] at h
          cases h
        | error e' =>
          rw [hrest] at h
          obtain rfl := Except.error.inj h
          rw [ok_bind, ih hrest]
          rfl

/-- Loops with the same results agree in every round. -/
theorem eq_of_mapM_eq_ok (hf : l.mapM f = .ok results) (hg : l.mapM g = .ok results) :
    ∀ a ∈ l, f a = g a := by
  induction l generalizing results with
  | nil => exact fun a ha => absurd ha not_mem_nil
  | cons a l ih =>
    rw [mapM_cons] at hf hg
    obtain ⟨b, hb, hf⟩ := bind_eq_ok.mp hf
    obtain ⟨rest, hrest, hf⟩ := bind_eq_ok.mp hf
    obtain ⟨b', hb', hg⟩ := bind_eq_ok.mp hg
    obtain ⟨rest', hrest', hg⟩ := bind_eq_ok.mp hg
    obtain rfl := pure_eq_ok.mp hf
    obtain ⟨rfl, rfl⟩ := List.cons.inj (pure_eq_ok.mp hg)
    rw [forall_mem_cons]
    exact ⟨hb.trans hb'.symm, ih hrest hrest'⟩

/-- A loop that collects results succeeds exactly when every round does. -/
theorem mapM_isOk_iff : (∃ results, l.mapM f = .ok results) ↔ ∀ a ∈ l, ∃ b, f a = .ok b := by
  induction l with
  | nil => simp [pure, Except.pure]
  | cons a l ih =>
    rw [mapM_cons, forall_mem_cons, ← ih]
    constructor
    · rintro ⟨results, hrun⟩
      obtain ⟨b, hb, hrest⟩ := bind_eq_ok.mp hrun
      obtain ⟨bs, hbs, -⟩ := bind_eq_ok.mp hrest
      exact ⟨⟨b, hb⟩, ⟨bs, hbs⟩⟩
    · rintro ⟨⟨b, hb⟩, ⟨bs, hbs⟩⟩
      exact ⟨b :: bs, by simp [hb, hbs, pure, Except.pure]⟩

/-- A loop goes through one of its rounds. -/
theorem mapM_append_cons_eq_ok {first rest : List α} : (first ++ a :: rest).mapM f = .ok results ↔
      ∃ before b after, first.mapM f = .ok before ∧ f a = .ok b ∧ rest.mapM f = .ok after ∧
        results = before ++ b :: after := by
  rw [mapM_append, bind_eq_ok]
  constructor
  · rintro ⟨before, hbefore, h⟩
    obtain ⟨tail, htail, h⟩ := bind_eq_ok.mp h
    rw [mapM_cons] at htail
    obtain ⟨b, hb, htail⟩ := bind_eq_ok.mp htail
    obtain ⟨after, hafter, htail⟩ := bind_eq_ok.mp htail
    obtain rfl := pure_eq_ok.mp htail
    exact ⟨before, b, after, hbefore, hb, hafter, (pure_eq_ok.mp h).symm⟩
  · rintro ⟨before, b, after, hbefore, hb, hafter, rfl⟩
    refine ⟨before, hbefore, ?_⟩
    rw [mapM_cons, hb, hafter]
    rfl

/-- What every round determines of its result, the loop determines of its results. -/
theorem map_eq_of_mapM_eq_ok {γ : Type} {p : β → γ} {q : α → γ} (h : l.mapM f = .ok results)
    (hround : ∀ a ∈ l, ∀ b, f a = .ok b → p b = q a) : results.map p = l.map q := by
  induction l generalizing results with
  | nil =>
    obtain rfl := pure_eq_ok.mp h
    rfl
  | cons a l ih =>
    rw [mapM_cons] at h
    obtain ⟨b, hb, h⟩ := bind_eq_ok.mp h
    obtain ⟨bs, hbs, h⟩ := bind_eq_ok.mp h
    obtain rfl := pure_eq_ok.mp h
    rw [map_cons, map_cons, hround a (by simp) b hb,
      ih hbs fun a' ha' => hround a' (mem_cons_of_mem a ha')]

/-- The results of a loop are the results of its rounds. -/
theorem mem_of_mapM_eq_ok (h : l.mapM f = .ok results) :
    (∀ b ∈ results, ∃ a ∈ l, f a = .ok b) ∧ ∀ a ∈ l, ∃ b ∈ results, f a = .ok b := by
  induction l generalizing results with
  | nil =>
    obtain rfl := pure_eq_ok.mp h
    simp
  | cons a l ih =>
    rw [mapM_cons] at h
    obtain ⟨b, hb, h⟩ := bind_eq_ok.mp h
    obtain ⟨bs, hbs, h⟩ := bind_eq_ok.mp h
    obtain rfl := pure_eq_ok.mp h
    obtain ⟨hback, hforth⟩ := ih hbs
    constructor
    · rintro c hc
      rcases mem_cons.mp hc with rfl | hc
      · exact ⟨a, by simp, hb⟩
      · obtain ⟨a', ha', hc'⟩ := hback c hc
        exact ⟨a', by simp [ha'], hc'⟩
    · rintro c hc
      rcases mem_cons.mp hc with rfl | hc
      · exact ⟨b, by simp, hb⟩
      · obtain ⟨b', hb', hc'⟩ := hforth c hc
        exact ⟨b', by simp [hb'], hc'⟩

/-- Loops over lists with the same keys agree where their rounds do. -/
theorem mapM_eq_of_map_eq {κ : Type} {key : α → κ} {m : List α} (hkeys : l.map key = m.map key)
    (hround : ∀ a ∈ l, ∀ b ∈ m, key a = key b → f a = f b) : l.mapM f = m.mapM f := by
  induction l generalizing m with
  | nil => rw [map_eq_nil_iff.mp hkeys.symm]
  | cons a l ih =>
    obtain ⟨b, m, rfl⟩ := exists_cons_of_ne_nil (l := m) (by rintro rfl; simp at hkeys)
    obtain ⟨hkey, hkeys⟩ := List.cons.inj hkeys
    rw [mapM_cons, mapM_cons, hround a (by simp) b (by simp) hkey,
      ih hkeys fun a' ha' b' hb' =>
        hround a' (mem_cons_of_mem a ha') b' (mem_cons_of_mem b hb')]

/-- A loop over the same entries in another order has the same results in another order. -/
theorem exists_mapM_of_perm {m : List α} (h : l.mapM f = .ok results) (hperm : l.Perm m) :
    ∃ others, m.mapM f = .ok others ∧ results.Perm others := by
  induction hperm generalizing results with
  | nil => exact ⟨results, h, List.Perm.refl _⟩
  | cons a _ ih =>
    rw [mapM_cons] at h
    obtain ⟨b, hb, h⟩ := bind_eq_ok.mp h
    obtain ⟨bs, hbs, h⟩ := bind_eq_ok.mp h
    obtain rfl := pure_eq_ok.mp h
    obtain ⟨cs, hcs, hperm⟩ := ih hbs
    refine ⟨b :: cs, ?_, hperm.cons b⟩
    rw [mapM_cons, hb, hcs]
    rfl
  | swap a a' l =>
    rw [mapM_cons, mapM_cons] at h
    obtain ⟨b', hb', h⟩ := bind_eq_ok.mp h
    obtain ⟨tail, htail, h⟩ := bind_eq_ok.mp h
    obtain ⟨b, hb, htail⟩ := bind_eq_ok.mp htail
    obtain ⟨bs, hbs, htail⟩ := bind_eq_ok.mp htail
    obtain rfl := pure_eq_ok.mp htail
    obtain rfl := pure_eq_ok.mp h
    refine ⟨b :: b' :: bs, ?_, List.Perm.swap ..⟩
    rw [mapM_cons, mapM_cons, hb, hb', hbs]
    rfl
  | trans _ _ ih ih' =>
    obtain ⟨middle, hmiddle, hperm⟩ := ih h
    obtain ⟨others, hothers, hperm'⟩ := ih' hmiddle
    exact ⟨others, hothers, hperm.trans hperm'⟩

/-- A loop that checks its entries and hands them on as they are. -/
theorem mapM_eq_self {f : α → Except ε α} {results : List α} (h : l.mapM f = .ok results)
    (hround : ∀ a b, f a = .ok b → b = a) : results = l ∧ ∀ a ∈ l, f a = .ok a := by
  refine ⟨?_, fun a ha => ?_⟩
  · have hmap := map_eq_of_mapM_eq_ok (p := id) (q := id) h fun a _ b hb => hround a b hb
    simpa using hmap
  · obtain ⟨b, -, hb⟩ := (mem_of_mapM_eq_ok h).2 a ha
    rw [hb, hround a b hb]

theorem mapM_eq_ok_self {f : α → Except ε α} (h : ∀ a ∈ l, f a = .ok a) : l.mapM f = .ok l := by
  induction l with
  | nil => rfl
  | cons a l ih =>
    rw [forall_mem_cons] at h
    rw [mapM_cons, h.1, ok_bind, ih h.2, ok_bind]
    rfl

/-- A loop whose rounds add one entry each adds as many as it has rounds. -/
theorem length_of_foldlM_eq_ok {f : List β → α → Except ε (List β)}
    (hround : ∀ rows a rows', f rows a = .ok rows' → rows'.length = rows.length + 1)
    {rows rows' : List β} (h : l.foldlM f rows = .ok rows') :
    rows'.length = rows.length + l.length := by
  induction l generalizing rows with
  | nil =>
    obtain rfl := pure_eq_ok.mp h
    rfl
  | cons a l ih =>
    rw [foldlM_cons] at h
    obtain ⟨next, hnext, h⟩ := bind_eq_ok.mp h
    rw [ih h, hround rows a next hnext, length_cons]
    omega

@[simp] theorem mapError_eq_ok {δ : Type} {g : ε → δ} : x.mapError g = .ok a ↔ x = .ok a := by
  cases x <;> simp [Except.mapError]

/-- A loop whose rounds succeed and keep an invariant succeeds and keeps it. -/
theorem foldlM_isOk {f : β → α → Except ε β} {P : β → Prop}
    (hround : ∀ b a, a ∈ l → P b → ∃ b', f b a = .ok b' ∧ P b') (hb : P b) :
    ∃ b', l.foldlM f b = .ok b' ∧ P b' := by
  induction l generalizing b with
  | nil => exact ⟨b, rfl, hb⟩
  | cons a l ih =>
    obtain ⟨next, hnext, hkept⟩ := hround b a mem_cons_self hb
    obtain ⟨last, hlast, hkept'⟩ := ih (fun b a ha => hround b a (mem_cons_of_mem _ ha)) hkept
    exact ⟨last, by rw [foldlM_cons, hnext]; exact hlast, hkept'⟩

/-- What every round of a loop preserves, the loop preserves. -/
theorem foldlM_invariant {f : β → α → Except ε β} {P : β → Prop}
    (hround : ∀ b a b', a ∈ l → P b → f b a = .ok b' → P b') {b' : β} (hb : P b)
    (h : l.foldlM f b = .ok b') : P b' := by
  induction l generalizing b with
  | nil =>
    obtain rfl := pure_eq_ok.mp h
    exact hb
  | cons a l ih =>
    rw [foldlM_cons] at h
    obtain ⟨next, hnext, h⟩ := bind_eq_ok.mp h
    exact ih (fun b c b' hc => hround b c b' (mem_cons_of_mem a hc))
      (hround b a next mem_cons_self hb hnext) h

/-- A loop each of whose rounds takes the state of the rounds before it to the state of these and
itself. -/
theorem foldlM_eq_of_step {f : β → α → Except ε β} (state : List α → β)
    (hstep : ∀ front a, front ++ [a] <+: l → f (state front) a = .ok (state (front ++ [a]))) :
    l.foldlM f (state []) = .ok (state l) := by
  induction l using List.reverseRecOn with
  | nil => rfl
  | append_singleton l a ih =>
    have hfront := ih fun front b hbegins =>
      hstep front b (hbegins.trans (prefix_append l [a]))
    rw [foldlM_append, hfront, ok_bind, foldlM_cons, hstep l a (prefix_refl _)]
    rfl

end Goodmoneying.Library

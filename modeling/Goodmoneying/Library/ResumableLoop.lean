import Goodmoneying.Library.ExceptRules
import Goodmoneying.Library.StableSort

/-!
# Loops that can be resumed

A loop takes a fallible `step` for every input and collects the outputs. When an output carries a
saved form of the state, and loading it gives the state back, a new loop over the rest of the inputs
goes on exactly as the first one would have (`Checkpointed.resume`). So does a calculation that
first puts its inputs in order (`Checkpointed.sorted_append`). `Checkpointed` names the states that
are saved faithfully (`good`) and the inputs on which the steps stay among them (`valid`).
-/

namespace Goodmoneying.Library

variable {ε σ α β κ : Type}
variable {s t : σ} {l : List α} {bs : List β}

/-- The state after a list of inputs, and their outputs. -/
def runLoop (step : σ → α → Except ε (σ × β)) : σ → List α → Except ε (σ × List β)
  | s, [] => .ok (s, [])
  | s, a :: l => do
    let (t, b) ← step s a
    let (u, bs) ← runLoop step t l
    pure (u, b :: bs)

/-- A loop over two lists is the loop over the first and then the loop over the second. -/
theorem runLoop_append (step : σ → α → Except ε (σ × β)) (s : σ) (l m : List α) :
    runLoop step s (l ++ m) = (do
      let (t, bs) ← runLoop step s l
      let (u, cs) ← runLoop step t m
      pure (u, bs ++ cs)) := by
  induction l generalizing s with
  | nil => simp [runLoop]
  | cons a l ih => simp [runLoop, ih, bind_assoc]

/-- A fold that appends the outputs it keeps is the loop with the kept outputs. -/
theorem foldlM_append_eq (step : σ → α → Except ε (σ × β)) (keep : β → Bool)
    (l : List α) (s : σ) (acc : List β) :
    l.foldlM (fun state a => do
      let (t, b) ← step state.1 a
      pure (t, if keep b then state.2 ++ [b] else state.2)) (s, acc) =
    (fun result => (result.1, acc ++ result.2.filter keep)) <$> runLoop step s l := by
  induction l generalizing s acc with
  | nil => simp [runLoop]
  | cons a l ih =>
    rw [List.foldlM_cons, runLoop, map_bind]
    simp only [bind_assoc]
    congr 1
    funext result
    obtain ⟨t, b⟩ := result
    simp only [pure_bind, ih, map_bind]
    rw [map_eq_pure_bind]
    congr 1
    funext rest
    cases hb : keep b <;> simp [hb]

/-- Every step from a good state on a valid input saves a good state, from which it can be
loaded. -/
structure Checkpointed (step : σ → α → Except ε (σ × β)) (save : β → κ)
    (load : κ → Except ε σ) (good : σ → Prop) (valid : α → Prop) : Prop where
  keeps : ∀ s a t b, good s → valid a → step s a = .ok (t, b) → good t
  restores : ∀ s a t b, good s → valid a → step s a = .ok (t, b) → load (save b) = .ok t

variable {step : σ → α → Except ε (σ × β)} {save : β → κ} {load : κ → Except ε σ}
  {good : σ → Prop} {valid : α → Prop}

/-- A loop over a nonempty list ends in the state that its last output saved. -/
theorem Checkpointed.ends (h : Checkpointed step save load good valid) (hs : good s)
    (hl : ∀ a ∈ l, valid a) (hne : l ≠ []) (hrun : runLoop step s l = .ok (t, bs)) :
    ∃ last, bs.getLast? = some last ∧ load (save last) = .ok t := by
  induction l generalizing s bs with
  | nil => exact absurd rfl hne
  | cons a l ih =>
    rw [runLoop] at hrun
    obtain ⟨⟨u, b⟩, hstep, hrun⟩ := bind_eq_ok.mp hrun
    obtain ⟨⟨v, cs⟩, hrest, hrun⟩ := bind_eq_ok.mp hrun
    obtain ⟨rfl, rfl⟩ := Prod.mk.inj (pure_eq_ok.mp hrun)
    have ha := hl a (by simp)
    cases l with
    | nil =>
      obtain ⟨rfl, rfl⟩ := Prod.mk.inj (Except.ok.inj hrest)
      exact ⟨b, rfl, h.restores s a u b hs ha hstep⟩
    | cons a' l =>
      obtain ⟨last, hlast, hload⟩ := ih (h.keeps s a u b hs ha hstep)
        (fun a ha => hl a (List.mem_cons_of_mem _ ha)) (by simp) hrest
      refine ⟨last, ?_, hload⟩
      rw [List.getLast?_cons, hlast]
      rfl

/-- Every input has an output. -/
theorem length_runLoop (hrun : runLoop step s l = .ok (t, bs)) : bs.length = l.length := by
  induction l generalizing s t bs with
  | nil =>
    obtain ⟨-, rfl⟩ := Prod.mk.inj (Except.ok.inj hrun)
    rfl
  | cons a l ih =>
    rw [runLoop] at hrun
    obtain ⟨⟨u, b⟩, -, hrun⟩ := bind_eq_ok.mp hrun
    obtain ⟨⟨v, cs⟩, hrest, hrun⟩ := bind_eq_ok.mp hrun
    obtain ⟨-, rfl⟩ := Prod.mk.inj (pure_eq_ok.mp hrun)
    simp [ih hrest]

/-- A loop that stops and is resumed from the last output has the outputs of the loop that
never stopped. -/
theorem Checkpointed.resume (h : Checkpointed step save load good valid) (m : List α) (hs : good s)
    (hl : ∀ a ∈ l, valid a) (hne : l ≠ []) (hrun : runLoop step s l = .ok (t, bs)) :
    ∃ last, bs.getLast? = some last ∧
      runLoop step s (l ++ m) = (do
        let u ← load (save last)
        let (v, cs) ← runLoop step u m
        pure (v, bs ++ cs)) := by
  obtain ⟨last, hlast, hload⟩ := h.ends hs hl hne hrun
  refine ⟨last, hlast, ?_⟩
  rw [runLoop_append, hrun, hload]
  rfl

/-- The outputs of the loop started from what is loaded. -/
def loadedRun (step : σ → α → Except ε (σ × β)) (load : κ → Except ε σ) (saved : κ)
    (l : List α) : Except ε (List β) := do
  let s ← load saved
  let result ← runLoop step s l
  pure result.2

/-- The outputs over a list are those over a nonempty prefix, followed by those over the rest
from what the last output of the prefix saved. -/
theorem Checkpointed.loadedRun_append (h : Checkpointed step save load good valid) {saved : κ}
    (hsaved : load saved = .ok s) (hs : good s) {first : List β} (hl : ∀ a ∈ l, valid a)
    (hne : l ≠ []) (hfirst : loadedRun step load saved l = .ok first) (m : List α) :
    ∃ last, first.getLast? = some last ∧ first.length = l.length ∧
      loadedRun step load saved (l ++ m) = (do
        let appended ← loadedRun step load (save last) m
        pure (first ++ appended)) := by
  unfold loadedRun at *
  rw [hsaved, ok_bind] at hfirst ⊢
  obtain ⟨⟨t, bs⟩, hrun, hfirst⟩ := bind_eq_ok.mp hfirst
  obtain rfl := pure_eq_ok.mp hfirst
  obtain ⟨last, hlast, hresume⟩ := h.resume m hs hl hne hrun
  refine ⟨last, hlast, length_runLoop hrun, ?_⟩
  rw [hresume]
  simp only [bind_assoc, pure_bind]

/-- A calculation that runs the loop over inputs in the order of distinct times may be cut after
any of them. -/
theorem Checkpointed.sorted_append {τ : Type} [LinearOrder τ]
    (h : Checkpointed step save load good valid) {time : α → τ}
    (calculate : List α → κ → Except ε (List β)) (hcalculate : ∀ {items : List α} {saved : κ},
      (items.Pairwise fun a b => time a ≤ time b) → (items.map time).Nodup → calculate items saved =
      loadedRun step load saved items) {saved : κ} (hsaved : load saved = .ok s) (hs : good s)
    {items before after : List α} {first : List β} (hdistinct : (items.map time).Nodup)
    (hvalid : ∀ a ∈ items, valid a) (hcut : sortedBy time items = before ++ after)
    (hbefore : before ≠ []) (hfirst : calculate before saved = .ok first) :
    ∃ last, first.getLast? = some last ∧ first.length = before.length ∧
      calculate (before ++ after) saved = (do
        let appended ← calculate after (save last)
        pure (first ++ appended)) := by
  have hsorted := hcut ▸ sortedBy_pairwise time items
  have hdistinct' : ((before ++ after).map time).Nodup :=
    hcut ▸ (nodup_map_sortedBy time).mpr hdistinct
  have hvalid' : ∀ a ∈ before, valid a := fun a ha =>
    hvalid a (mem_sortedBy.mp (hcut ▸ List.mem_append_left after ha))
  obtain ⟨hsortedBefore, hsortedAfter, -⟩ := List.pairwise_append.mp hsorted
  have hdistinctBefore := (List.map_append ▸ hdistinct').of_append_left
  have hdistinctAfter := (List.map_append ▸ hdistinct').of_append_right
  rw [hcalculate hsortedBefore hdistinctBefore] at hfirst
  obtain ⟨last, hlast, hlength, hresume⟩ :=
    h.loadedRun_append hsaved hs hvalid' hbefore hfirst after
  refine ⟨last, hlast, hlength, ?_⟩
  rw [hcalculate hsorted hdistinct', hcalculate hsortedAfter hdistinctAfter, hresume]

end Goodmoneying.Library

/-
  TraceRelay — runs of operations.

  * `Step.chain f ops s` performs the operations `ops` one after the other, from
    the state `s` on, and keeps all results and records;
  * `chain_append_result` and `chain_append_state` cut a run in two;
  * `chain_invariant`: what every operation preserves, a run preserves.
-/
import TraceRelay.Log

namespace TraceRelay

namespace Step

variable {σ τ α β ο : Type}

/-! ## The parts of a step -/

@[simp] theorem map_result (f : α → β) (x : Step σ α) : (x.map f).result = f x.result :=
  rfl

@[simp] theorem map_state (f : α → β) (x : Step σ α) : (x.map f).state = x.state :=
  rfl

@[simp] theorem within_result (f : σ → τ) (x : Step σ α) : (x.within f).result = x.result :=
  rfl

@[simp] theorem within_state (f : σ → τ) (x : Step σ α) : (x.within f).state = f x.state :=
  rfl

@[simp] theorem after_result (log : Array LogRecord) (x : Step σ α) :
    (x.after log).result = x.result :=
  rfl

@[simp] theorem after_state (log : Array LogRecord) (x : Step σ α) :
    (x.after log).state = x.state :=
  rfl

@[simp] theorem bind_result (x : Step σ α) (f : α → σ → Step τ β) :
    (x.bind f).result = (f x.result x.state).result :=
  rfl

@[simp] theorem bind_state (x : Step σ α) (f : α → σ → Step τ β) :
    (x.bind f).state = (f x.result x.state).state :=
  rfl

/-! ## Runs -/

/-- The operations `ops`, one after the other. -/
def chain (f : ο → σ → Step σ α) : List ο → σ → Step σ (List α)
  | [], s => ⟨[], s, #[]⟩
  | op :: ops, s => (f op s).bind fun a s => (chain f ops s).map (a :: ·)

variable (f : ο → σ → Step σ α)

@[simp] theorem chain_nil (s : σ) : chain f [] s = ⟨[], s, #[]⟩ :=
  rfl

@[simp] theorem chain_cons_result (op : ο) (ops : List ο) (s : σ) :
    (chain f (op :: ops) s).result = (f op s).result :: (chain f ops (f op s).state).result :=
  rfl

@[simp] theorem chain_cons_state (op : ο) (ops : List ο) (s : σ) :
    (chain f (op :: ops) s).state = (chain f ops (f op s).state).state :=
  rfl

theorem chain_map (g : τ → ο) (ops : List τ) (s : σ) :
    chain f (ops.map g) s = chain (fun op => f (g op)) ops s := by
  induction ops generalizing s with
  | nil => rfl
  | cons op ops ih => simp only [List.map_cons, chain, ih]

theorem chain_append_state (ops ops' : List ο) (s : σ) :
    (chain f (ops ++ ops') s).state = (chain f ops' (chain f ops s).state).state := by
  induction ops generalizing s with
  | nil => rfl
  | cons op ops ih => exact ih (f op s).state

theorem chain_append_result (ops ops' : List ο) (s : σ) : (chain f (ops ++ ops') s).result =
    (chain f ops s).result ++ (chain f ops' (chain f ops s).state).result := by
  induction ops generalizing s with
  | nil => rfl
  | cons op ops ih => exact congrArg ((f op s).result :: ·) (ih (f op s).state)

theorem chain_concat_state (ops : List ο) (op : ο) (s : σ) :
    (chain f (ops ++ [op]) s).state = (f op (chain f ops s).state).state :=
  chain_append_state f ops [op] s

theorem chain_concat_result (ops : List ο) (op : ο) (s : σ) : (chain f (ops ++ [op]) s).result =
    (chain f ops s).result ++ [(f op (chain f ops s).state).result] :=
  chain_append_result f ops [op] s

variable {f}

/-- **What every operation preserves, a run preserves.** -/
theorem chain_invariant {P : σ → Prop} (h : ∀ op s, P s → P (f op s).state) (ops : List ο) {s : σ}
    (hs : P s) : P (chain f ops s).state := by
  induction ops generalizing s with
  | nil => exact hs
  | cons op ops ih => exact ih (h op s hs)

/-- **What every operation of a part is, a run of the part is**: the image under `k` of a run of the
    whole. -/
theorem chain_within {g : ο → τ → Step τ α} {k : σ → τ} (h : ∀ op s, (f op s).within k = g op (k s))
    (ops : List ο) (s : σ) : (chain f ops s).within k = chain g ops (k s) := by
  induction ops generalizing s with
  | nil => rfl
  | cons op ops ih => simp only [chain, ← h, bind, within, map, after, ← ih]

end Step

end TraceRelay

import L8Tunnel.Base.Run

/-! # Programs that call shared objects -/

namespace L8Tunnel.Base

universe v

/-- A program that calls operations of `F` and goes on with their answers. Between two calls
others may run. -/
inductive Prog (F : Type → Type) (α : Type) : Type 1 where
  | done (a : α) : Prog F α
  | call {β : Type} (op : F β) (next : β → Prog F α) : Prog F α

namespace Prog
variable {F : Type → Type} {α β : Type}

def bind (p : Prog F α) (f : α → Prog F β) : Prog F β :=
  match p with
  | done a => f a
  | call op next => call op fun b => (next b).bind f

instance : Monad (Prog F) where
  pure := done
  bind := bind

def lift (op : F α) : Prog F α := call op done
@[simp] theorem pure_eq (a : α) : (pure a : Prog F α) = done a := rfl
@[simp] theorem done_bind (a : α) (f : α → Prog F β) : done a >>= f = f a := rfl

@[simp] theorem call_bind {γ : Type} (op : F γ) (next : γ → Prog F α) (f : α → Prog F β) :
    call op next >>= f = call op fun c => next c >>= f := rfl

@[simp] theorem lift_bind (op : F α) (f : α → Prog F β) : lift op >>= f = call op f := rfl

def All (A : (β : Type) → F β → Prop) : Prog F α → Prop
  | done _ => True
  | call op next => A _ op ∧ ∀ b, All A (next b)

def embed {G : Type → Type} (f : {β : Type} → F β → G β) : Prog F α → Prog G α
  | done a => done a
  | call op next => call (f op) fun b => (next b).embed f

theorem All.embed {G : Type → Type} {f : {β : Type} → F β → G β} {A : (β : Type) → G β → Prop}
    {p : Prog F α} (h : p.All fun _ op => A _ (f op)) : (p.embed f).All A := by
  induction p with
  | done a => trivial
  | call op next ih => exact ⟨h.1, fun b => ih b (h.2 b)⟩

theorem All.mono {A B : (β : Type) → F β → Prop} {p : Prog F α} (h : p.All A)
    (hAB : ∀ β op, A β op → B β op) : p.All B := by
  induction p with
  | done a => trivial
  | call op next ih => exact ⟨hAB _ op h.1, fun b => ih b (h.2 b)⟩

theorem All.bind {A : (β : Type) → F β → Prop} {p : Prog F α} {f : α → Prog F β} (h : p.All A)
    (hf : ∀ a, (f a).All A) : (p >>= f).All A := by
  induction p with
  | done a => exact hf a
  | call op next ih => exact ⟨h.1, fun b => ih b (h.2 b)⟩

end Prog

/-- What an operation does to the shared state, for a thread and what it meets outside. -/
structure Objects (F : Type → Type) (τ : Type) (ι : Type v) (σ : Type) where
  answer : {β : Type} → τ → ι → F β → σ → σ × β

variable {F : Type → Type} {τ σ α β : Type} {ι : Type v}

/-- The program can end with an answer and a state, for some behaviour of the
world outside. -/
inductive Runs (O : Objects F τ ι σ) (t : τ) : Prog F α → σ → α → σ → Prop where
  | done (a : α) (s : σ) : Runs O t (.done a) s a s
  | call {β : Type} {op : F β} {next : β → Prog F α} {s s' : σ} {a : α} (i : ι) :
      Runs O t (next (O.answer t i op s).2) (O.answer t i op s).1 a s' →
      Runs O t (.call op next) s a s'

namespace Runs
variable {O : Objects F τ ι σ} {t : τ} {s s' : σ} {a : α} {b : β}

@[simp] theorem done_iff {a' : α} : Runs O t (.done a) s a' s' ↔ a' = a ∧ s' = s := by
  constructor
  · intro h
    cases h
    exact ⟨rfl, rfl⟩
  · rintro ⟨rfl, rfl⟩
    exact .done _ _

theorem call_iff {γ : Type} {op : F γ} {next : γ → Prog F α} :
    Runs O t (.call op next) s a s' ↔
      ∃ i, Runs O t (next (O.answer t i op s).2) (O.answer t i op s).1 a s' := by
  constructor
  · intro h
    cases h with
    | call i h => exact ⟨i, h⟩
  · rintro ⟨i, h⟩
    exact .call i h

theorem bind_iff {p : Prog F α} {f : α → Prog F β} :
    Runs O t (p >>= f) s b s' ↔ ∃ a s1, Runs O t p s a s1 ∧ Runs O t (f a) s1 b s' := by
  induction p generalizing s with
  | done a => simp
  | call op next ih =>
    rw [Prog.call_bind, call_iff]
    constructor
    · rintro ⟨i, h⟩
      obtain ⟨a, s1, hp, hf⟩ := (ih _).mp h
      exact ⟨a, s1, .call i hp, hf⟩
    · rintro ⟨a, s1, hp, hf⟩
      obtain ⟨i, hp⟩ := call_iff.mp hp
      exact ⟨i, (ih _).mpr ⟨a, s1, hp, hf⟩⟩

theorem frame {κ : Type} {A : (β : Type) → F β → Prop} (f : σ → κ)
    (hf : ∀ (β : Type) (op : F β) (i : ι) (s : σ), A β op → f (O.answer t i op s).1 = f s)
    {p : Prog F α} (hp : p.All A) (h : Runs O t p s a s') : f s' = f s := by
  induction h with
  | done a s => rfl
  | call i _ ih => rw [ih (hp.2 _), hf _ _ i _ hp.1]

def eval (O : Objects F τ ι σ) (t : τ) (i : ι) : Prog F α → σ → α × σ
  | .done a, s => (a, s)
  | .call op next, s => eval O t i (next (O.answer t i op s).2) (O.answer t i op s).1

@[simp] theorem eval_done (O : Objects F τ ι σ) (t : τ) (i : ι) (a : α) (s : σ) :
    eval O t i (.done a) s = (a, s) := rfl

theorem eval_call {γ : Type} (O : Objects F τ ι σ) (t : τ) (i : ι) (op : F γ)
    (next : γ → Prog F α) (s : σ) :
    eval O t i (.call op next) s =
      eval O t i (next (O.answer t i op s).2) (O.answer t i op s).1 := rfl

theorem eval_bind (O : Objects F τ ι σ) (t : τ) (i : ι) (p : Prog F α) (f : α → Prog F β) (s : σ) :
    eval O t i (p >>= f) s = eval O t i (f (eval O t i p s).1) (eval O t i p s).2 := by
  induction p generalizing s with
  | done a => rfl
  | call op next ih => exact ih _ _

theorem of_eval (O : Objects F τ ι σ) (t : τ) (i : ι) (p : Prog F α) (s : σ) :
    Runs O t p s (eval O t i p s).1 (eval O t i p s).2 := by
  induction p generalizing s with
  | done a => exact .done a s
  | call op next ih => exact .call i (ih _ _)

end Runs

section
variable [DecidableEq τ] {ρ : Type}

/-- Some thread makes its next call. -/
inductive PoolStep (O : Objects F τ ι σ) :
    σ × (τ → Prog F ρ) → τ × ι → σ × (τ → Prog F ρ) → Prop where
  | call {s : σ} {P : τ → Prog F ρ} {t : τ} {β : Type} {op : F β} {next : β → Prog F ρ} (i : ι) :
      P t = .call op next →
      PoolStep O (s, P) (t, i)
        ((O.answer t i op s).1, Function.update P t (next (O.answer t i op s).2))

def Obeys (C : (β : Type) → τ → F β → σ → Prop) (c : σ × (τ → Prog F ρ)) (a : τ × ι) : Prop :=
  match c.2 a.1 with
  | .done _ => True
  | .call op _ => C _ a.1 op c.1

omit [DecidableEq τ] in
theorem Obeys.mono {C C' : (β : Type) → τ → F β → σ → Prop} {c : σ × (τ → Prog F ρ)} {a : τ × ι}
    (h : Obeys C c a) (hC : ∀ β t (op : F β) s, C β t op s → C' β t op s) : Obeys C' c a := by
  unfold Obeys at h ⊢
  split
  · trivial
  next op next hnext =>
    rw [hnext] at h
    exact hC _ _ op _ h

def playOne (O : Objects F τ ι σ) (c : σ × (τ → Prog F ρ)) (a : τ × ι) : σ × (τ → Prog F ρ) :=
  match c.2 a.1 with
  | .done _ => c
  | .call op next =>
    ((O.answer a.1 a.2 op c.1).1, Function.update c.2 a.1 (next (O.answer a.1 a.2 op c.1).2))

def play (O : Objects F τ ι σ) (c : σ × (τ → Prog F ρ)) (as : List (τ × ι)) :
    σ × (τ → Prog F ρ) :=
  as.foldl (playOne O) c

def plays (O : Objects F τ ι σ) (ok : (β : Type) → τ → F β → σ → Bool) :
    σ × (τ → Prog F ρ) → List (τ × ι) → Bool
  | _, [] => true
  | c, a :: as =>
    (match c.2 a.1 with
      | .done _ => false
      | .call op _ => ok _ a.1 op c.1) && plays O ok (playOne O c a) as

variable {O : Objects F τ ι σ} {C : (β : Type) → τ → F β → σ → Prop} {κ : Type}
  {I : σ → (τ → κ) → Prop}

/-- What a thread does in a state with the invariant keeps it, whatever the
others own: `l` is what the thread owns, `Q` what it owns at its end. -/
def Keeps (O : Objects F τ ι σ) (C : (β : Type) → τ → F β → σ → Prop) (I : σ → (τ → κ) → Prop)
    (t : τ) (Q : α → κ → Prop) : Prog F α → κ → Prop
  | .done a, l => Q a l
  | .call op next, l => ∀ i s L, I s L → L t = l → C _ t op s →
      ∃ l', I (O.answer t i op s).1 (Function.update L t l') ∧
        Keeps O C I t Q (next (O.answer t i op s).2) l'

namespace Keeps
variable {t : τ} {p : Prog F α} {l : κ}

theorem mono {Q Q' : α → κ → Prop} (h : Keeps O C I t Q p l) (hQ : ∀ a l, Q a l → Q' a l) :
    Keeps O C I t Q' p l := by
  induction p generalizing l with
  | done a => exact hQ a l h
  | call op next ih =>
    intro i s L hI hl hC
    obtain ⟨l', hI', h'⟩ := h i s L hI hl hC
    exact ⟨l', hI', ih _ h'⟩

theorem bind {Q : β → κ → Prop} {M : α → κ → Prop} {f : α → Prog F β}
    (h : Keeps O C I t M p l) (hf : ∀ a l, M a l → Keeps O C I t Q (f a) l) :
    Keeps O C I t Q (p >>= f) l := by
  induction p generalizing l with
  | done a => exact hf a l h
  | call op next ih =>
    intro i s L hI hl hC
    obtain ⟨l', hI', h'⟩ := h i s L hI hl hC
    exact ⟨l', hI', ih _ h'⟩

theorem of_all {A : (β : Type) → F β → Prop} (h : p.All A)
    (hA : ∀ (β : Type) (op : F β) i s L, A β op → I s L → L t = l → C β t op s →
      I (O.answer t i op s).1 L) :
    Keeps O C I t (fun _ l' => l' = l) p l := by
  induction p with
  | done a => rfl
  | call op next ih =>
    intro i s L hI hl hC
    refine ⟨l, ?_, ih _ (h.2 _)⟩
    rw [← hl, Function.update_eq_self]
    exact hA _ op i s L h.1 hI hl hC

theorem embed {G : Type → Type} {σ' : Type} {O' : Objects G τ ι σ'}
    {C' : (β : Type) → τ → G β → σ' → Prop} {f : {β : Type} → F β → G β} {π : σ' → σ}
    {Q : α → κ → Prop}
    (hstate : ∀ {β : Type} i (op : F β) s, π (O'.answer t i (f op) s).1 = (O.answer t i op (π s)).1)
    (hanswer : ∀ {β : Type} i (op : F β) s, (O'.answer t i (f op) s).2 = (O.answer t i op (π s)).2)
    (hC : ∀ {β : Type} (op : F β) s, C' β t (f op) s → C β t op (π s))
    (h : Keeps O C I t Q p l) : Keeps O' C' (fun s L => I (π s) L) t Q (p.embed f) l := by
  induction p generalizing l with
  | done a => exact h
  | call op next ih =>
    intro i s L hI hl hC'
    obtain ⟨l', hI', h'⟩ := h i (π s) L hI hl (hC op s hC')
    refine ⟨l', ?_, ?_⟩
    · dsimp only
      rwa [hstate]
    · dsimp only
      rw [hanswer]
      exact ih _ h'

end Keeps

section
variable {Q : τ → ρ → κ → Prop}

/-- One operation of one thread: the shared invariant holds again at a new local view of that
thread, and every thread still keeps its promise. -/
theorem keeps_step {c c' : σ × (τ → Prog F ρ)} {a : τ × ι} {L : τ → κ}
    (hstep : Guarded (Obeys C) (PoolStep O) c a c') (hI : I c.1 L)
    (hP : ∀ t, Keeps O C I t (Q t) (c.2 t) (L t)) :
    ∃ l', I c'.1 (Function.update L a.1 l') ∧
      ∀ t, Keeps O C I t (Q t) (c'.2 t) (Function.update L a.1 l' t) := by
  obtain ⟨hC, hcall⟩ := hstep
  cases hcall with
  | @call s P t _ op next i hnext =>
    have ht := hP t
    dsimp only at ht
    rw [hnext] at ht
    have hobeys : C _ t op s := by simpa [Obeys, hnext] using hC
    obtain ⟨l', hI', h'⟩ := ht i s L hI rfl hobeys
    refine ⟨l', hI', fun u => ?_⟩
    by_cases hu : u = t
    · subst hu
      simpa using h'
    · simpa [hu] using hP u

theorem keeps_run_still {c c' : σ × (τ → Prog F ρ)} {as : List (τ × ι)}
    (hrun : Run (Guarded (Obeys C) (PoolStep O)) c as c') {L : τ → κ} (hI : I c.1 L)
    (hP : ∀ t, Keeps O C I t (Q t) (c.2 t) (L t)) :
    ∃ L', I c'.1 L' ∧ (∀ t, Keeps O C I t (Q t) (c'.2 t) (L' t)) ∧
      ∀ t, t ∉ as.map Prod.fst → L' t = L t := by
  induction hrun generalizing L with
  | nil c => exact ⟨L, hI, hP, fun _ _ => rfl⟩
  | @cons c1 a c2 as c3 hstep _ ih =>
    obtain ⟨l', hI', hP'⟩ := keeps_step hstep hI hP
    obtain ⟨L', hI3, hP3, hstill⟩ := ih hI' hP'
    refine ⟨L', hI3, hP3, fun t ht => ?_⟩
    rw [List.map_cons, List.mem_cons, not_or] at ht
    rw [hstill t ht.2, Function.update_of_ne ht.1]

/-- The invariant rule for a pool of threads over shared objects, for every interleaving. -/
theorem keeps_run {s s' : σ} {P P' : τ → Prog F ρ} {as : List (τ × ι)}
    (hrun : Run (Guarded (Obeys C) (PoolStep O)) (s, P) as (s', P')) {L : τ → κ} (hI : I s L)
    (hP : ∀ t, Keeps O C I t (Q t) (P t) (L t)) :
    ∃ L', I s' L' ∧ ∀ t, Keeps O C I t (Q t) (P' t) (L' t) := by
  obtain ⟨L', hI', hP', -⟩ := keeps_run_still hrun hI hP
  exact ⟨L', hI', hP'⟩

end

theorem playOne_step {c : σ × (τ → Prog F ρ)} {a : τ × ι} {β : Type} {op : F β}
    {next : β → Prog F ρ} (h : c.2 a.1 = .call op next) : PoolStep O c a (playOne O c a) := by
  obtain ⟨s, P⟩ := c
  obtain ⟨t, i⟩ := a
  dsimp only at h
  have hplay : playOne O (s, P) (t, i) =
      ((O.answer t i op s).1, Function.update P t (next (O.answer t i op s).2)) := by
    simp [playOne, h]
  rw [hplay]
  exact .call i h

theorem plays_run {ok : (β : Type) → τ → F β → σ → Bool}
    (hok : ∀ β t (op : F β) s, ok β t op s → C β t op s) :
    ∀ {as : List (τ × ι)} {c : σ × (τ → Prog F ρ)}, plays O ok c as →
      Run (Guarded (Obeys C) (PoolStep O)) c as ((play O c as).1, (play O c as).2)
  | [], c, _ => .nil c
  | a :: as, c, h => by
    simp only [plays, Bool.and_eq_true] at h
    obtain ⟨hcall, hrest⟩ := h
    split at hcall
    · cases hcall
    next op next hnext =>
      refine .cons ⟨?_, playOne_step hnext⟩ (plays_run hok hrest)
      simpa [Obeys, hnext] using hok _ a.1 op c.1 hcall

end
end L8Tunnel.Base

import Mathlib.Data.List.Basic

/-! Shell scripts whose commands change a state `σ` and report a status, and that may be killed at any
command. A command is `c : C`; what it does, and what it leaves behind when it's killed, is up to a
`Host`. -/

namespace ShMonitor.Shell

variable {σ C ρ τ : Type*}

inductive Script (σ C ρ : Type*) where
  | ret (r : ρ)
  | test (k : σ → Script σ C ρ)
  | run (c : C) (k : Bool → Script σ C ρ)

structure Host (σ C : Type*) where
  run : C → σ → Bool × σ
  torn : C → σ → σ

namespace Script

def bind : Script σ C ρ → (ρ → Script σ C τ) → Script σ C τ
  | .ret r, f => f r
  | .test k, f => .test (fun s => (k s).bind f)
  | .run c k, f => .run c (fun ok => (k ok).bind f)

/-- `kill` counts the commands that are done before one is killed; without it the script runs to its
end. -/
def exec (host : Host σ C) : Script σ C ρ → Option ℕ → σ → Option ρ × σ
  | .ret r, _, s => (some r, s)
  | .test k, kill, s => (k s).exec host kill s
  | .run c k, none, s => (k (host.run c s).1).exec host none (host.run c s).2
  | .run c _, some 0, s => (none, host.torn c s)
  | .run c k, some (n + 1), s => (k (host.run c s).1).exec host (some n) (host.run c s).2

/-- `Q` at the end of the script and `X` wherever it may be killed. -/
def Meets (host : Host σ C) (Q : ρ → σ → Prop) (X : σ → Prop) : Script σ C ρ → σ → Prop
  | .ret r, s => Q r s
  | .test k, s => (k s).Meets host Q X s
  | .run c k, s => X (host.torn c s) ∧ (k (host.run c s).1).Meets host Q X (host.run c s).2

variable {host : Host σ C} {Q Q' : ρ → σ → Prop} {X X' : σ → Prop}

@[simp] lemma meets_ret {r : ρ} {s : σ} : (ret r : Script σ C ρ).Meets host Q X s ↔ Q r s := Iff.rfl

@[simp] lemma meets_test {k : σ → Script σ C ρ} {s : σ} :
    (test k).Meets host Q X s ↔ (k s).Meets host Q X s := Iff.rfl

@[simp] lemma meets_run {c : C} {k : Bool → Script σ C ρ} {s : σ} :
    (run c k).Meets host Q X s ↔ X (host.torn c s) ∧
      (k (host.run c s).1).Meets host Q X (host.run c s).2 := Iff.rfl

lemma meets_run_of {c : C} {k : Bool → Script σ C ρ} {s s' : σ} {ok : Bool} (h : host.run c s = (ok, s')) :
    (run c k).Meets host Q X s ↔ X (host.torn c s) ∧ (k ok).Meets host Q X s' := by
  rw [meets_run, h]

lemma exec_run_of {c : C} {k : Bool → Script σ C ρ} {s s' : σ} {ok : Bool} (h : host.run c s = (ok, s')) :
    (run c k).exec host none s = (k ok).exec host none s' := by
  rw [exec, h]

lemma Meets.mono (hQ : ∀ r s, Q r s → Q' r s) (hX : ∀ s, X s → X' s) {m : Script σ C ρ} {s : σ}
    (h : m.Meets host Q X s) : m.Meets host Q' X' s := by
  induction m generalizing s with
  | ret r => exact hQ r s h
  | test k ih => exact ih s h
  | run c k ih => exact ⟨hX _ h.1, ih _ h.2⟩

lemma Meets.bind {R : τ → σ → Prop} {f : ρ → Script σ C τ} {m : Script σ C ρ} {s : σ}
    (h : m.Meets host (fun r s => (f r).Meets host R X s) X s) : (m.bind f).Meets host R X s := by
  induction m generalizing s with
  | ret r => exact h
  | test k ih => exact ih s h
  | run c k ih => exact ⟨h.1, ih _ h.2⟩

lemma Meets.sound {m : Script σ C ρ} {s : σ} (h : m.Meets host Q X s) (kill : Option ℕ) :
    (∀ r, (m.exec host kill s).1 = some r → Q r (m.exec host kill s).2) ∧
      ((m.exec host kill s).1 = none → X (m.exec host kill s).2) := by
  induction m generalizing s kill with
  | ret r => exact ⟨fun r' hr => Option.some.inj hr ▸ h, fun hn => absurd hn (Option.some_ne_none r)⟩
  | test k ih => exact ih s h kill
  | run c k ih =>
    cases kill with
    | none => exact ih _ h.2 none
    | some n =>
      cases n with
      | zero => exact ⟨fun r hr => absurd hr (Option.some_ne_none r).symm, fun _ => h.1⟩
      | succ n => exact ih _ h.2 (some n)

variable (host) in
lemma exec_preserves {J : σ → Prop} (hrun : ∀ c s, J s → J (host.run c s).2) (m : Script σ C ρ) {s : σ}
    (h : J s) :
    J (m.exec host none s).2 := by
  induction m generalizing s with
  | ret r => exact h
  | test k ih => exact ih s h
  | run c k ih => exact ih _ (hrun c s h)

variable (host) in
lemma exec_keeps {J : σ → Prop} (hrun : ∀ c s, J s → J (host.run c s).2)
    (htorn : ∀ c s, J s → J (host.torn c s))
    (m : Script σ C ρ) (kill : Option ℕ) {s : σ} (h : J s) : J (m.exec host kill s).2 := by
  induction m generalizing s kill with
  | ret r => exact h
  | test k ih => exact ih s kill h
  | run c k ih =>
    cases kill with
    | none => exact ih _ none (hrun c s h)
    | some n =>
      cases n with
      | zero => exact htorn c s h
      | succ n => exact ih _ (some n) (hrun c s h)

lemma exec_bind (host : Host σ C) {m : Script σ C ρ} (f : ρ → Script σ C τ) {s s' : σ} {r : ρ}
    (h : m.exec host none s = (some r, s')) : (m.bind f).exec host none s = (f r).exec host none s' := by
  induction m generalizing s with
  | ret r' =>
    obtain ⟨hr, rfl⟩ := Prod.mk.inj h
    obtain rfl := Option.some.inj hr
    rfl
  | test k ih => exact ih s h
  | run c k ih => exact ih _ h

lemma exec_none_isSome (host : Host σ C) (m : Script σ C ρ) (s : σ) :
    ∃ r s', m.exec host none s = (some r, s') := by
  induction m generalizing s with
  | ret r => exact ⟨r, s, rfl⟩
  | test k ih => exact ih s s
  | run c k ih => exact ih _ _

end Script

end ShMonitor.Shell

import ShMonitor.Shell.Script

/-! Scripts under `set -e`: a sequence of commands that ends at the first one that fails, with the result
that goes with it. -/

namespace ShMonitor.Shell

variable {σ C ρ : Type*}

def Host.all (host : Host σ C) : List C → σ → Bool × σ
  | [], s => (true, s)
  | c :: cs, s => if (host.run c s).1 then host.all cs (host.run c s).2 else (false, (host.run c s).2)

def Script.strictBy (cs : List C) (failed : C → ρ) (k : Script σ C ρ) : Script σ C ρ :=
  cs.foldr (fun c k => .run c (fun ok => if ok then k else .ret (failed c))) k

def Script.strict (cs : List C) (failed : ρ) (k : Script σ C ρ) : Script σ C ρ :=
  strictBy cs (fun _ => failed) k

namespace Host

variable (host : Host σ C)

@[simp] lemma all_nil (s : σ) : host.all [] s = (true, s) := rfl

lemma all_cons (c : C) (cs : List C) (s : σ) :
    host.all (c :: cs) s =
      if (host.run c s).1 then host.all cs (host.run c s).2 else (false, (host.run c s).2) := rfl

lemma all_append (cs ds : List C) (s : σ) :
    host.all (cs ++ ds) s = if (host.all cs s).1 then host.all ds (host.all cs s).2 else host.all cs s := by
  induction cs generalizing s with
  | nil => rfl
  | cons c cs ih =>
    rw [List.cons_append, all_cons, all_cons, ih]
    by_cases h : (host.run c s).1 = true <;> simp [h]

variable {host} in
lemma all_idle {works : C → Bool} {cs : List C} {s : σ} (h : ∀ c ∈ cs, host.run c s = (works c, s)) :
    host.all cs s = (cs.all works, s) := by
  induction cs with
  | nil => rfl
  | cons c cs ih =>
    rw [all_cons, h c List.mem_cons_self, ih (fun c' hc' => h c' (List.mem_cons_of_mem _ hc')), List.all_cons]
    cases works c with
    | true => rfl
    | false => rfl

end Host

lemma Script.state_strictBy (host : Host σ C) (cs : List C) (failed : C → ρ) (k : Script σ C ρ) (s : σ) :
    ((strictBy cs failed k).exec host none s).2 =
      if (host.all cs s).1 then (k.exec host none (host.all cs s).2).2 else (host.all cs s).2 := by
  induction cs generalizing s with
  | nil => rfl
  | cons c cs ih =>
    show ((if (host.run c s).1 then strictBy cs failed k else ret (failed c)).exec host none
      (host.run c s).2).2 = _
    rw [Host.all_cons]
    by_cases h : (host.run c s).1 = true
    · rw [if_pos h, if_pos h]
      exact ih _
    · rw [if_neg h, if_neg h]
      rfl

lemma Script.exec_strict (host : Host σ C) (cs : List C) (failed : ρ) (k : Script σ C ρ) (s : σ) :
    (strict cs failed k).exec host none s =
      if (host.all cs s).1 then k.exec host none (host.all cs s).2 else (some failed, (host.all cs s).2) := by
  induction cs generalizing s with
  | nil => rfl
  | cons c cs ih =>
    show ((if (host.run c s).1 then strict cs failed k else ret failed).exec host none (host.run c s).2) = _
    rw [Host.all_cons]
    by_cases h : (host.run c s).1 = true
    · rw [if_pos h, if_pos h]
      exact ih _
    · rw [if_neg h, if_neg h]
      rfl

lemma Script.meets_strict_cons {host : Host σ C} {R : σ → Prop} {c : C} {cs : List C} {failed : ρ}
    {k : Script σ C ρ} {s : σ} (htorn : R (host.torn c s)) (hrun : R (host.run c s).2)
    (hdone : (host.run c s).1 = true → (strict cs failed k).Meets host (fun _ => R) R (host.run c s).2) :
    (strict (c :: cs) failed k).Meets host (fun _ => R) R s := by
  show R (host.torn c s) ∧
    (if (host.run c s).1 then strict cs failed k else ret failed).Meets host (fun _ => R) R (host.run c s).2
  refine ⟨htorn, ?_⟩
  cases h : (host.run c s).1 with
  | false => exact hrun
  | true => exact hdone h

end ShMonitor.Shell

import Mathlib.Data.Finset.Card
import Mathlib.Data.Finset.Dedup
import Mathlib.Order.Basic
import ShMonitor.Runs

/-! Bisection of a history: a commit `c` is an ancestor of `d` if `c ≤ d`. Between commits known to
be good and one known to be bad, a bisector has commits tested until the bad one is the only suspect
left. The tests may change a state of their own and may be broken off. -/

namespace ShMonitor.Bisection

open Runs

variable {α E E' σ τ : Type*} [PartialOrder α]

inductive Mark where
  | good
  | bad
  | skip
deriving DecidableEq

structure Bounds (α : Type*) where
  bad : α
  goods : List α
  skipped : List α

namespace Bounds

def mark (b : Bounds α) (test : α × Mark) : Bounds α :=
  match test.2 with
  | .good => { b with goods := test.1 :: b.goods }
  | .bad => { b with bad := test.1 }
  | .skip => { b with skipped := test.1 :: b.skipped }

def start (good bad : α) : Bounds α := ⟨bad, [good], []⟩

def Suspect (b : Bounds α) (c : α) : Prop := c ≤ b.bad ∧ ∀ g ∈ b.goods, ¬ c ≤ g

/-- A suspect that a test can still say something about. -/
def Open (b : Bounds α) (c : α) : Prop := b.Suspect c ∧ c ≠ b.bad ∧ c ∉ b.skipped

def Settled (b : Bounds α) : Prop := ∀ c, b.Suspect c → c = b.bad

def Asked (b : Bounds α) (tests : List (α × Mark)) : Prop := Along mark (fun b test => b.Open test.1) b tests

variable {b : Bounds α} {test : α × Mark} {tests : List (α × Mark)} {c : α}

lemma suspect_mark (hopen : b.Open test.1) (h : (b.mark test).Suspect c) : b.Suspect c := by
  obtain ⟨d, m⟩ := test
  cases m with
  | good => exact ⟨h.1, fun g hg => h.2 g (List.mem_cons_of_mem d hg)⟩
  | bad => exact ⟨h.1.trans hopen.1.1, h.2⟩
  | skip => exact h

omit [PartialOrder α] in
lemma skipped_mark (b : Bounds α) (test : α × Mark) : ∀ d ∈ b.skipped, d ∈ (b.mark test).skipped := by
  obtain ⟨c, m⟩ := test
  cases m with
  | good | bad => exact fun d hd => hd
  | skip => exact fun d hd => List.mem_cons_of_mem c hd

lemma not_open_mark (b : Bounds α) (test : α × Mark) : ¬ (b.mark test).Open test.1 := by
  obtain ⟨c, m⟩ := test
  rintro ⟨hs, hbad, hskip⟩
  cases m with
  | good => exact hs.2 c List.mem_cons_self le_rfl
  | bad => exact hbad rfl
  | skip => exact hskip List.mem_cons_self

lemma open_mark (hopen : b.Open test.1) (h : (b.mark test).Open c) : b.Open c := by
  have hsuspect : b.Suspect c := suspect_mark hopen h.1
  refine ⟨hsuspect, ?_, fun hskip => h.2.2 (skipped_mark b test c hskip)⟩
  -- Where a test moves the bad end down, the former one is no suspect any more.
  rintro rfl
  obtain ⟨d, m⟩ := test
  cases m with
  | good | skip => exact h.2.1 rfl
  | bad => exact h.2.1 (le_antisymm h.1.1 hopen.1.1)

lemma asked_open (hasked : b.Asked tests) : ∀ test ∈ tests, b.Open test.1 := by
  induction tests generalizing b with
  | nil => simp
  | cons test tests ih =>
    intro t ht
    obtain rfl | ht := List.mem_cons.mp ht
    · exact hasked.1
    · exact open_mark hasked.1 (ih hasked.2 t ht)

lemma asked_nodup (hasked : b.Asked tests) : (tests.map Prod.fst).Nodup := by
  induction tests generalizing b with
  | nil => exact List.nodup_nil
  | cons test tests ih =>
    refine List.nodup_cons.mpr ⟨?_, ih hasked.2⟩
    intro hmem
    obtain ⟨t, ht, heq⟩ := List.mem_map.mp hmem
    apply not_open_mark b test
    rw [← heq]
    exact asked_open hasked.2 t ht

lemma suspect_bad_mark (hopen : b.Open test.1) (h : b.Suspect b.bad) :
    (b.mark test).Suspect (b.mark test).bad := by
  obtain ⟨d, m⟩ := test
  cases m with
  | good =>
    refine ⟨le_rfl, ?_⟩
    intro g hg hle
    obtain rfl | hg := List.mem_cons.mp hg
    · exact hopen.2.1 (le_antisymm hopen.1.1 hle)
    · exact h.2 g hg hle
  | bad => exact ⟨le_rfl, hopen.1.2⟩
  | skip => exact h

lemma suspect_bad_after (hasked : b.Asked tests) (h : b.Suspect b.bad) :
    (after mark b tests).Suspect (after mark b tests).bad := by
  induction tests generalizing b with
  | nil => exact h
  | cons test tests ih => exact ih hasked.2 (suspect_bad_mark hasked.1 h)

omit [PartialOrder α] in
lemma bad_after (b : Bounds α) (tests : List (α × Mark)) :
    (after mark b tests).bad = b.bad ∨ ((after mark b tests).bad, Mark.bad) ∈ tests := by
  induction tests generalizing b with
  | nil => exact Or.inl rfl
  | cons test tests ih =>
    obtain h | h := ih (b.mark test)
    · obtain ⟨c, m⟩ := test
      cases m with
      | good | skip => exact Or.inl h
      | bad =>
        right
        rw [after, List.foldl_cons, ← after, h]
        exact List.mem_cons_self
    · exact Or.inr (List.mem_cons_of_mem test h)

omit [PartialOrder α] in
lemma mem_goods_after (b : Bounds α) (tests : List (α × Mark)) {g : α} :
    g ∈ (after mark b tests).goods ↔ g ∈ b.goods ∨ (g, Mark.good) ∈ tests := by
  induction tests generalizing b with
  | nil => simp [after]
  | cons test tests ih =>
    obtain ⟨d, m⟩ := test
    rw [after, List.foldl_cons, ← after, ih, List.mem_cons]
    cases m with
    | good => simp [mark, or_assoc, or_left_comm]
    | bad | skip => simp [mark]

omit [PartialOrder α] in
lemma mem_skipped_after (b : Bounds α) (tests : List (α × Mark)) {c : α} :
    c ∈ (after mark b tests).skipped ↔ c ∈ b.skipped ∨ (c, Mark.skip) ∈ tests := by
  induction tests generalizing b with
  | nil => simp [after]
  | cons test tests ih =>
    obtain ⟨d, m⟩ := test
    rw [after, List.foldl_cons, ← after, ih, List.mem_cons]
    cases m with
    | skip => simp [mark, or_assoc, or_left_comm]
    | bad | good => simp [mark]

lemma settled_of_none_open (hskip : b.skipped = []) (h : ∀ c, ¬ b.Open c) : b.Settled := by
  intro c hc
  by_contra hne
  exact h c ⟨hc, hne, by simp [hskip]⟩

end Bounds

inductive Move (α : Type*) where
  | test (c : α)
  | found (c : α)
  | stuck

/-- A bisector has open suspects tested, names the bad end when it is the only suspect, and gives up
when it is not and no suspect is open. -/
structure Bisector (α : Type*) [PartialOrder α] where
  move : Bounds α → Move α
  test_open : ∀ {b c}, move b = .test c → b.Open c
  found_settled : ∀ {b c}, move b = .found c → c = b.bad ∧ b.Settled
  stuck_closed : ∀ {b}, move b = .stuck → ¬ b.Settled ∧ ∀ c, ¬ b.Open c

inductive Ending (α : Type*) where
  | found (c : α)
  | stuck
  | interrupted (narrowed : α)
deriving DecidableEq

/-- One test for each `e`, unless the bisector is done before; `none` is a test that is broken off. -/
def drive (git : Bisector α) (test : α → E → σ → Option Mark × σ) (es : List E) (b : Bounds α) (s : σ) :
    Ending α × σ :=
  match git.move b with
  | .found c => (.found c, s)
  | .stuck => (.stuck, s)
  | .test c =>
    match es with
    | [] => (.interrupted b.bad, s)
    | e :: es =>
      match test c e s with
      | (some m, s') => drive git test es (b.mark (c, m)) s'
      | (none, s') => (.interrupted b.bad, s')

def trail (git : Bisector α) (test : α → E → σ → Option Mark × σ) (es : List E) (b : Bounds α) (s : σ) :
    List (α × Mark) :=
  match git.move b with
  | .found _ => []
  | .stuck => []
  | .test c =>
    match es with
    | [] => []
    | e :: es =>
      match test c e s with
      | (some m, s') => (c, m) :: trail git test es (b.mark (c, m)) s'
      | (none, _) => []

def Ends (b : Bounds α) : Ending α → Prop
  | .found c => c = b.bad ∧ b.Settled
  | .stuck => ¬ b.Settled ∧ ∀ c, ¬ b.Open c
  | .interrupted c => c = b.bad

structure Traced (Answer : α → Mark → Prop) (b : Bounds α) (tests : List (α × Mark)) (ending : Ending α) :
    Prop where
  asked : b.Asked tests
  answers : ∀ t ∈ tests, Answer t.1 t.2
  ends : Ends (after Bounds.mark b tests) ending

section

variable {Answer : α → Mark → Prop}

lemma Traced.mono {Answer' : α → Mark → Prop} (himp : ∀ c m, Answer c m → Answer' c m) {b : Bounds α}
    {tests : List (α × Mark)} {ending : Ending α} (h : Traced Answer b tests ending) :
    Traced Answer' b tests ending where
  asked := h.asked
  answers t ht := himp _ _ (h.answers t ht)
  ends := h.ends

lemma Traced.nil {b : Bounds α} {ending : Ending α} (h : Ends b ending) : Traced Answer b [] ending :=
  ⟨trivial, by simp, h⟩

lemma Traced.cons {b : Bounds α} {ending : Ending α} {c : α} {m : Mark} {tests : List (α × Mark)}
    (hopen : b.Open c)
    (hanswer : Answer c m) (h : Traced Answer (b.mark (c, m)) tests ending) :
    Traced Answer b ((c, m) :: tests) ending where
  asked := ⟨hopen, h.asked⟩
  answers := List.forall_mem_cons.mpr ⟨hanswer, h.answers⟩
  ends := h.ends

variable (git : Bisector α) {test : α → E → σ → Option Mark × σ} {J : σ → Prop}

variable {git} in
lemma drive_test {b : Bounds α} {c : α} (hm : git.move b = .test c) (e : E) (es : List E) (s : σ) :
    drive git test (e :: es) b s =
      match test c e s with
      | (some m, s') => drive git test es (b.mark (c, m)) s'
      | (none, s') => (.interrupted b.bad, s') := by
  rw [drive, hm]

variable {git} in
lemma trail_test {b : Bounds α} {c : α} (hm : git.move b = .test c) (e : E) (es : List E) (s : σ) :
    trail git test (e :: es) b s =
      match test c e s with
      | (some m, s') => (c, m) :: trail git test es (b.mark (c, m)) s'
      | (none, _) => [] := by
  rw [trail, hm]

lemma drive_spec (htest : ∀ c e s, J s → J (test c e s).2 ∧ ∀ m ∈ (test c e s).1, Answer c m) (es : List E)
    (b : Bounds α) {s : σ} (hs : J s) :
    J (drive git test es b s).2 ∧ Traced Answer b (trail git test es b s) (drive git test es b s).1 := by
  induction es generalizing b s with
  | nil =>
    rw [drive, trail]
    cases hm : git.move b with
    | found c => exact ⟨hs, .nil (git.found_settled hm)⟩
    | stuck => exact ⟨hs, .nil (git.stuck_closed hm)⟩
    | test c => exact ⟨hs, .nil rfl⟩
  | cons e es ih =>
    cases hm : git.move b with
    | found c =>
      rw [drive, trail, hm]
      exact ⟨hs, .nil (git.found_settled hm)⟩
    | stuck =>
      rw [drive, trail, hm]
      exact ⟨hs, .nil (git.stuck_closed hm)⟩
    | test c =>
      obtain ⟨hinv, hanswer⟩ := htest c e s hs
      rw [drive_test hm, trail_test hm]
      rcases ht : test c e s with ⟨_ | m, s'⟩ <;> rw [ht] at hinv hanswer
      · exact ⟨hinv, .nil rfl⟩
      · obtain ⟨hinv', hrest⟩ := ih (b.mark (c, m)) hinv
        exact ⟨hinv', .cons (git.test_open hm) (hanswer m rfl) hrest⟩

lemma drive_congr {test' : α → E' → τ → Option Mark × τ} {Q : E → E' → Prop} {R : σ → τ → Prop}
    (htest : ∀ c e e' s s', Q e e' → R s s' →
      (test c e s).1 = (test' c e' s').1 ∧ R (test c e s).2 (test' c e' s').2)
    {es : List E} {es' : List E'} (hes : List.Forall₂ Q es es') (b : Bounds α) {s : σ} {s' : τ} (hs : R s s') :
    (drive git test es b s).1 = (drive git test' es' b s').1 ∧
      R (drive git test es b s).2 (drive git test' es' b s').2 := by
  induction hes generalizing b s s' with
  | nil =>
    rw [drive, drive]
    cases git.move b <;> exact ⟨rfl, hs⟩
  | @cons e e' es es' he _ ih =>
    cases hm : git.move b with
    | found c | stuck =>
      rw [drive, drive, hm]
      exact ⟨rfl, hs⟩
    | test c =>
      obtain ⟨hmark, hnext⟩ := htest c e e' s s' he hs
      rw [drive_test hm, drive_test hm]
      rcases ht : test c e s with ⟨m, t⟩
      rcases ht' : test' c e' s' with ⟨m', t'⟩
      rw [ht, ht'] at hmark hnext
      obtain rfl : m = m' := hmark
      cases m with
      | none => exact ⟨rfl, hnext⟩
      | some m => exact ih (b.mark (c, m)) hnext

lemma drive_ends (hsome : ∀ c e s, (test c e s).1 ≠ none) (between : Finset α) (es : List E) {b : Bounds α}
    (hbetween : ∀ c, b.Open c → c ∈ between) (hes : between.card ≤ es.length) (s : σ) (c : α) :
    (drive git test es b s).1 ≠ .interrupted c := by
  classical
  induction es generalizing b s between with
  | nil =>
    rw [drive]
    cases hm : git.move b with
    | found c | stuck => simp
    | test d =>
      have hempty : between = ∅ := Finset.card_eq_zero.mp (Nat.le_zero.mp hes)
      have hmem := hbetween d (git.test_open hm)
      simp [hempty] at hmem
  | cons e es ih =>
    cases hm : git.move b with
    | found c | stuck => simp [drive, hm]
    | test d =>
      have hopen := git.test_open hm
      rw [drive_test hm]
      rcases ht : test d e s with ⟨_ | m, s'⟩
      · exact absurd (congrArg Prod.fst ht) (hsome d e s)
      · apply ih (between.erase d)
        · intro x hx
          refine Finset.mem_erase.mpr ⟨?_, hbetween x (Bounds.open_mark hopen hx)⟩
          rintro rfl
          exact Bounds.not_open_mark b (x, m) hx
        · rw [Finset.card_erase_of_mem (hbetween d hopen)]
          simp only [List.length_cons] at hes
          omega

end

def Cleared (good : α) (tests : List (α × Mark)) (c : α) : Prop :=
  ∃ g, c ≤ g ∧ (g = good ∨ (g, Mark.good) ∈ tests)

def Blamed (bad : α) (tests : List (α × Mark)) (c : α) : Prop := c = bad ∨ (c, Mark.bad) ∈ tests

def Concluded (good bad : α) (tests : List (α × Mark)) : Ending α → Prop
  | .found c => (Blamed bad tests c ∧ ¬ Cleared good tests c) ∧ ∀ d < c, Cleared good tests d
  -- Something below the bad end is left, all of it skipped.
  | .stuck => ∃ c, (Blamed bad tests c ∧ ¬ Cleared good tests c) ∧
      (∀ d < c, Cleared good tests d ∨ (d, Mark.skip) ∈ tests) ∧ ∃ d < c, ¬ Cleared good tests d
  | .interrupted c => Blamed bad tests c ∧ ¬ Cleared good tests c

structure Justified (v : α → Mark) (good bad : α) (tests : List (α × Mark)) (ending : Ending α) : Prop where
  once : (tests.map Prod.fst).Nodup
  answers : ∀ t ∈ tests, t.2 = v t.1 ∨ t.2 = .skip
  concluded : Concluded good bad tests ending

variable {v : α → Mark} {good bad : α} {tests : List (α × Mark)}

variable (bad) in
lemma cleared_iff {c : α} :
    Cleared good tests c ↔ ∃ g ∈ (after Bounds.mark (.start good bad) tests).goods, c ≤ g := by
  simp only [Cleared, Bounds.mem_goods_after, Bounds.start, List.mem_singleton]
  exact ⟨fun ⟨g, hle, hg⟩ => ⟨g, hg, hle⟩, fun ⟨g, hg, hle⟩ => ⟨g, hle, hg⟩⟩

lemma not_cleared {c : α} (h : (after Bounds.mark (.start good bad) tests).Suspect c) :
    ¬ Cleared good tests c := by
  intro hc
  obtain ⟨g, hg, hle⟩ := (cleared_iff bad).mp hc
  exact h.2 g hg hle

lemma suspect_of_not_cleared {c : α} (hle : c ≤ (after Bounds.mark (.start good bad) tests).bad)
    (h : ¬ Cleared good tests c) : (after Bounds.mark (.start good bad) tests).Suspect c :=
  ⟨hle, fun g hg hcg => h ((cleared_iff bad).mpr ⟨g, hg, hcg⟩)⟩

lemma Traced.concluded {Answer : α → Mark → Prop} {ending : Ending α}
    (h : Traced Answer (.start good bad) tests ending) (hrange : ¬ bad ≤ good) :
    Concluded good bad tests ending := by
  have hstart : (Bounds.start good bad).Suspect (Bounds.start good bad).bad :=
    ⟨le_rfl, fun g hg hle => hrange (List.mem_singleton.mp hg ▸ hle)⟩
  have hends := h.ends
  have hlast := Bounds.suspect_bad_after h.asked hstart
  have hbad := Bounds.bad_after (.start good bad) tests
  generalize hb : after Bounds.mark (.start good bad) tests = b at hends hlast hbad
  have hclosed {d : α} (hd : d < b.bad) (hn : ¬ Cleared good tests d) : b.Suspect d := by
    subst hb
    exact suspect_of_not_cleared hd.le hn
  have hblamed : Blamed bad tests b.bad ∧ ¬ Cleared good tests b.bad := by
    subst hb
    exact ⟨hbad, not_cleared hlast⟩
  cases ending with
  | interrupted c =>
    obtain rfl : c = b.bad := hends
    exact hblamed
  | found c =>
    obtain ⟨rfl, hsettled⟩ := hends
    refine ⟨hblamed, ?_⟩
    intro d hd
    by_contra hn
    exact hd.ne (hsettled d (hclosed hd hn))
  | stuck =>
    obtain ⟨hunsettled, hnone⟩ := hends
    refine ⟨b.bad, hblamed, ?_, ?_⟩
    · intro d hd
      by_contra hn
      obtain ⟨hcleared, hskip⟩ := not_or.mp hn
      refine hnone d ⟨hclosed hd hcleared, hd.ne, fun hmem => hskip ?_⟩
      rw [← hb, Bounds.mem_skipped_after] at hmem
      exact hmem.resolve_left List.not_mem_nil
    · rw [Bounds.Settled] at hunsettled
      push Not at hunsettled
      obtain ⟨d, hd, hne⟩ := hunsettled
      refine ⟨d, lt_of_le_of_ne hd.1 hne, ?_⟩
      subst hb
      exact not_cleared hd

lemma Traced.justified {ending : Ending α}
    (h : Traced (fun c m => m = v c ∨ m = .skip) (.start good bad) tests ending)
    (hrange : ¬ bad ≤ good) : Justified v good bad tests ending :=
  ⟨Bounds.asked_nodup h.asked, h.answers, h.concluded hrange⟩

lemma Justified.verdict {ending : Ending α} (h : Justified v good bad tests ending) {c : α} {m : Mark}
    (hm : (c, m) ∈ tests) (hne : m ≠ .skip) : v c = m := ((h.answers _ hm).resolve_right hne).symm

lemma Justified.minimal {c : α} (h : Justified v good bad tests (.found c)) (hgood : v good ≠ .bad)
    (hbad : v bad = .bad) (hpersists : ∀ d e, d ≤ e → v d = .bad → v e = .bad) :
    Minimal (fun d => v d = .bad) c := by
  obtain ⟨⟨hblamed, -⟩, hbelow⟩ := h.concluded
  refine ⟨hblamed.elim (fun hc => hc ▸ hbad) (fun hc => h.verdict hc (by simp)), ?_⟩
  intro d hd hle
  by_contra hnot
  obtain ⟨g, hdg, hg⟩ := hbelow d (lt_of_le_not_ge hle hnot)
  have hfails : v g = .bad := hpersists d g hdg hd
  obtain rfl | hg := hg
  · exact hgood hfails
  · rw [h.verdict hg (by simp)] at hfails
    cases hfails

lemma Traced.not_stuck (htestable : ∀ c, c ≤ bad → ¬ c ≤ good → v c ≠ .skip) :
    ¬ Traced (fun c m => m = v c) (.start good bad) tests .stuck := by
  rintro ⟨hasked, hall, hunsettled, hclosed⟩
  apply hunsettled
  apply Bounds.settled_of_none_open _ hclosed
  rw [List.eq_nil_iff_forall_not_mem]
  intro c hc
  obtain hc | hc := (Bounds.mem_skipped_after _ tests).mp hc
  · cases hc
  · obtain ⟨hsuspect, -⟩ := Bounds.asked_open hasked _ hc
    exact htestable c hsuspect.1 (hsuspect.2 good List.mem_cons_self) (hall _ hc).symm

def alone (v : α → Mark) (git : Bisector α) (tests : ℕ) (good bad : α) : Ending α :=
  (drive git (fun c (_ : Unit) (_ : Unit) => (some (v c), ())) (List.replicate tests ()) (.start good bad) ()).1

lemma alone_traced (git : Bisector α) (tests : ℕ) (good bad : α) :
    ∃ made, Traced (fun c m => m = v c) (.start good bad) made (alone v git tests good bad) :=
  ⟨_, (drive_spec git (J := fun _ => True) (by simp) _ _ trivial).2⟩

lemma drive_eq_alone (git : Bisector α) {test : α → E → σ → Option Mark × σ} {J : σ → Prop} {es : List E}
    (htest : ∀ c, ∀ e ∈ es, ∀ s, J s → (test c e s).1 = some (v c) ∧ J (test c e s).2) {s : σ} (hs : J s) :
    (drive git test es (.start good bad) s).1 = alone v git es.length good bad := by
  have hes : List.Forall₂ (fun e _ => e ∈ es) es (List.replicate es.length ()) := by
    refine List.forall₂_iff_get.mpr ⟨by simp, ?_⟩
    intro i hi _
    exact List.get_mem es ⟨i, hi⟩
  exact (drive_congr git (R := fun s _ => J s) (fun c e _ s _ he hinv => htest c e he s hinv) hes _ hs).1

lemma alone_found (git : Bisector α) {tests : ℕ} (between : Finset α)
    (hbetween : ∀ c, c ≤ bad → ¬ c ≤ good → c ≠ bad → c ∈ between) (htests : between.card ≤ tests)
    (htestable : ∀ c, c ≤ bad → ¬ c ≤ good → v c ≠ .skip) (hgood : v good ≠ .bad) (hbad : v bad = .bad)
    (hpersists : ∀ d e, d ≤ e → v d = .bad → v e = .bad) :
    ∃ c, alone v git tests good bad = .found c ∧ Minimal (fun d => v d = .bad) c := by
  have hrange : ¬ bad ≤ good := fun hle => hgood (hpersists bad good hle hbad)
  obtain ⟨made, htraced⟩ := alone_traced git (v := v) tests good bad
  have hopen {c : α} (hc : (Bounds.start good bad).Open c) : c ∈ between :=
    hbetween c hc.1.1 (hc.1.2 good List.mem_cons_self) hc.2.1
  cases ha : alone v git tests good bad with
  | found c =>
    rw [ha] at htraced
    have hjustified := (htraced.mono (fun _ _ => Or.inl)).justified hrange
    exact ⟨c, rfl, hjustified.minimal hgood hbad hpersists⟩
  | stuck =>
    rw [ha] at htraced
    exact absurd htraced (Traced.not_stuck htestable)
  | interrupted c =>
    exact absurd ha (drive_ends git (by simp) between _ (fun _ => hopen) (by simpa using htests) () c)

section

variable [DecidableEq α] [DecidableLE α] (b : Bounds α)

instance (c : α) : Decidable (b.Suspect c) := inferInstanceAs (Decidable (_ ∧ _))

instance (c : α) : Decidable (b.Open c) := inferInstanceAs (Decidable (_ ∧ _ ∧ _))

def middleMove (history : List α) : Move α :=
  match history.filter b.Open with
  | [] => if ∀ c ∈ history, b.Suspect c → c = b.bad then .found b.bad else .stuck
  | c :: cs => .test ((c :: cs).get ⟨cs.length / 2, by simp only [List.length_cons]; omega⟩)

def middle (history : List α) (hall : ∀ c, c ∈ history) : Bisector α where
  move b := middleMove b history
  test_open {b d} h := by
    rw [middleMove] at h
    split at h
    · split at h <;> cases h
    · rename_i c cs hopen
      obtain rfl := Move.test.inj h
      have hmem : (c :: cs).get ⟨cs.length / 2, by simp only [List.length_cons]; omega⟩ ∈ history.filter
        b.Open := by
        rw [hopen]
        exact List.get_mem _ _
      exact of_decide_eq_true (List.mem_filter.mp hmem).2
  found_settled {b d} h := by
    rw [middleMove] at h
    split at h
    · split at h
      · rename_i hsettled
        exact ⟨(Move.found.inj h).symm, fun c => hsettled c (hall c)⟩
      · cases h
    · cases h
  stuck_closed {b} h := by
    rw [middleMove] at h
    split at h
    · rename_i hnone
      split at h
      · cases h
      · rename_i hunsettled
        refine ⟨fun hs => hunsettled (fun c _ => hs c), ?_⟩
        intro c hc
        exact List.filter_eq_nil_iff.mp hnone c (hall c) (decide_eq_true hc)
    · cases h

end

end ShMonitor.Bisection

import ShMonitor.Texts.Lines

/-! Regular expressions in multi-line mode with the first-match rule of a backtracking engine.
Repetition ranges over single characters, which makes every search terminate by recursion on the
text. -/

namespace ShMonitor.Texts.Regex

open ShMonitor.Texts

inductive Re where
  | eps
  | chr (p : Char → Bool)
  | seq (r s : Re)
  | alt (r s : Re)
  | star (p : Char → Bool)
  | lazyStar (p : Char → Bool)
  | group (r : Re)
  | bol
  | eol
  | wordBoundary (isWord : Char → Bool)

def Re.lit (t : Text) : Re := t.foldr (fun c r => .seq (.chr (· == c)) r) .eps

def Re.plus (p : Char → Bool) : Re := .seq (.chr p) (.star p)

def Re.cat (rs : List Re) : Re := rs.foldr .seq .eps

structure Cursor where
  before : Text
  after : Text

def Cursor.atLineStart (cur : Cursor) : Bool :=
  match cur.before with
  | [] => true
  | c :: _ => c == '\n'

def Cursor.atLineEnd (cur : Cursor) : Bool :=
  match cur.after with
  | [] => true
  | c :: _ => c == '\n'

def Cursor.atBoundary (isWord : Char → Bool) (cur : Cursor) : Bool :=
  (cur.before.head?.map isWord).getD false != (cur.after.head?.map isWord).getD false

abbrev Found := List Text × Text

abbrev Cont := List Text → Cursor → Option Found

def greedy (p : Char → Bool) (k : Cursor → Option Found) : Text → Text → Option Found
  | b, [] => k ⟨b, []⟩
  | b, c :: a => if p c then (greedy p k (c :: b) a).or (k ⟨b, c :: a⟩) else k ⟨b, c :: a⟩

def reluctant (p : Char → Bool) (k : Cursor → Option Found) : Text → Text → Option Found
  | b, [] => k ⟨b, []⟩
  | b, c :: a => (k ⟨b, c :: a⟩).or (if p c then reluctant p k (c :: b) a else none)

def Re.run : Re → Cont → Cont
  | .eps, k => k
  | .chr p, k => fun gs cur =>
    match cur.after with
    | [] => none
    | c :: a => if p c then k gs ⟨c :: cur.before, a⟩ else none
  | .seq r s, k => r.run (s.run k)
  | .alt r s, k => fun gs cur => (r.run k gs cur).or (s.run k gs cur)
  | .star p, k => fun gs cur => greedy p (k gs) cur.before cur.after
  | .lazyStar p, k => fun gs cur => reluctant p (k gs) cur.before cur.after
  | .group r, k => fun gs cur =>
    r.run (fun gs' cur' => k (gs' ++ [cur.after.take (cur.after.length - cur'.after.length)]) cur') gs cur
  | .bol, k => fun gs cur => if cur.atLineStart then k gs cur else none
  | .eol, k => fun gs cur => if cur.atLineEnd then k gs cur else none
  | .wordBoundary isWord, k => fun gs cur => if cur.atBoundary isWord then k gs cur else none

def Re.matchAt (r : Re) (b a : Text) : Option Found :=
  r.run (fun gs cur => some (gs, cur.after)) [] ⟨b, a⟩

/-- The matches from left to right, none overlapping the one before. The first argument counts the
characters that still belong to the previous match. No pattern here matches the empty text. -/
def Re.scan (r : Re) : ℕ → Text → Text → List (List Text)
  | _, b, [] =>
    match r.matchAt b [] with
    | none => []
    | some f => [f.1]
  | n + 1, b, c :: a => r.scan n (c :: b) a
  | 0, b, c :: a =>
    match r.matchAt b (c :: a) with
    | none => r.scan 0 (c :: b) a
    | some f => f.1 :: r.scan (a.length - f.2.length) (c :: b) a

def Re.findall (r : Re) (t : Text) : List (List Text) := r.scan 0 [] t

def Re.search (r : Re) (t : Text) : Bool := !(r.findall t).isEmpty

lemma greedy_some {p : Char → Bool} {k : Cursor → Option Found} {f : Found} (b a : Text)
    (h : k ⟨(a.takeWhile p).reverse ++ b, a.dropWhile p⟩ = some f) : greedy p k b a = some f := by
  induction a generalizing b with
  | nil => simpa [greedy] using h
  | cons c a ih =>
    cases hc : p c with
    | false => simpa [greedy, hc] using h
    | true =>
      have hr : greedy p k (c :: b) a = some f := ih (c :: b) (by simpa [hc] using h)
      simp [greedy, hc, hr]

lemma greedy_possessive {p : Char → Bool} {k : Cursor → Option Found}
    (hk : ∀ b c a, p c = true → k ⟨b, c :: a⟩ = none) (b a : Text) :
    greedy p k b a = k ⟨(a.takeWhile p).reverse ++ b, a.dropWhile p⟩ := by
  induction a generalizing b with
  | nil => simp [greedy]
  | cons c a ih =>
    cases hc : p c with
    | false => simp [greedy, hc]
    | true => simp [greedy, hc, hk b c a hc, ih (c :: b)]

lemma greedy_sound {p : Char → Bool} {k : Cursor → Option Found} {f : Found} {b a : Text}
    (h : greedy p k b a = some f) :
    ∃ u v, a = u ++ v ∧ (∀ c ∈ u, p c = true) ∧ k ⟨u.reverse ++ b, v⟩ = some f := by
  induction a generalizing b with
  | nil => exact ⟨[], [], rfl, by simp, by simpa [greedy] using h⟩
  | cons c a ih =>
    cases hc : p c with
    | false => exact ⟨[], c :: a, rfl, by simp, by simpa [greedy, hc] using h⟩
    | true =>
      simp only [greedy, hc, if_true, Option.or_eq_some_iff] at h
      rcases h with h | ⟨-, h⟩
      · obtain ⟨u, v, rfl, hu, hk⟩ := ih h
        refine ⟨c :: u, v, rfl, ?_, by simpa using hk⟩
        simpa [hc] using hu
      · exact ⟨[], c :: a, rfl, by simp, h⟩

lemma greedy_isSome {p : Char → Bool} {k : Cursor → Option Found} {b : Text} (u v : Text)
    (hu : ∀ c ∈ u, p c = true) (hk : (k ⟨u.reverse ++ b, v⟩).isSome) : (greedy p k b (u ++ v)).isSome := by
  induction u generalizing b with
  | nil =>
    cases v with
    | nil => simpa [greedy] using hk
    | cons c v => cases hc : p c <;> simp_all [greedy]
  | cons c u ih =>
    have hr := ih (b := c :: b) (fun d hd => hu d (by simp [hd])) (by simpa using hk)
    simp [greedy, hu c (by simp), hr]

lemma reluctant_some {p : Char → Bool} {k : Cursor → Option Found} {f : Found} (b w a : Text)
    (hp : ∀ c ∈ w, p c = true)
    (hn : ∀ x y, w = x ++ y → y ≠ [] → k ⟨x.reverse ++ b, y ++ a⟩ = none)
    (h : k ⟨w.reverse ++ b, a⟩ = some f) : reluctant p k b (w ++ a) = some f := by
  induction w generalizing b with
  | nil => cases a <;> simp_all [reluctant]
  | cons c w ih =>
    have h0 : k ⟨b, c :: (w ++ a)⟩ = none := by simpa using hn [] (c :: w) rfl (by simp)
    have hr : reluctant p k (c :: b) (w ++ a) = some f := by
      refine ih (c :: b) (fun d hd => hp d (by simp [hd])) ?_ (by simpa using h)
      intro x y hw hy
      simpa using hn (c :: x) y (by simp [hw]) hy
    simp [reluctant, h0, hp c (by simp), hr]

@[simp] lemma take_consumed (u v : Text) : (u ++ v).take ((u ++ v).length - v.length) = u := by
  simp

@[simp] lemma run_cat_nil (k : Cont) : (Re.cat []).run k = k := rfl

@[simp] lemma run_cat_cons (r : Re) (rs : List Re) (k : Cont) :
    (Re.cat (r :: rs)).run k = r.run ((Re.cat rs).run k) := rfl

lemma run_star (p : Char → Bool) (k : Cont) (gs : List Text) (b a : Text) :
    (Re.star p).run k gs ⟨b, a⟩ = greedy p (k gs) b a := rfl

lemma run_lit_cons (c d : Char) (t : Text) (k : Cont) (gs : List Text) (b a : Text) :
    (Re.lit (c :: t)).run k gs ⟨b, d :: a⟩ =
      if d == c then (Re.lit t).run k gs ⟨d :: b, a⟩ else none := rfl

lemma run_plus_cons (p : Char → Bool) (k : Cont) (gs : List Text) (b a : Text) (c : Char) :
    (Re.plus p).run k gs ⟨b, c :: a⟩ = if p c then greedy p (k gs) (c :: b) a else none := rfl

lemma run_group (r : Re) (k : Cont) (gs : List Text) (b a : Text) :
    (Re.group r).run k gs ⟨b, a⟩ =
      r.run (fun gs' cur => k (gs' ++ [a.take (a.length - cur.after.length)]) cur) gs ⟨b, a⟩ := rfl

lemma run_lit (t : Text) (k : Cont) (gs : List Text) (b a : Text) :
    (Re.lit t).run k gs ⟨b, t ++ a⟩ = k gs ⟨t.reverse ++ b, a⟩ := by
  induction t generalizing b with
  | nil => rfl
  | cons c t ih =>
    have hs : (Re.lit (c :: t)).run k gs ⟨b, c :: (t ++ a)⟩ = (Re.lit t).run k gs ⟨c :: b, t ++ a⟩ := by
      simp [run_lit_cons]
    rw [List.cons_append, hs, ih (c :: b)]
    simp

lemma run_lit_none {t : Text} {a : Text} (h : ¬ t <+: a) (k : Cont) (gs : List Text) (b : Text) :
    (Re.lit t).run k gs ⟨b, a⟩ = none := by
  induction t generalizing a b with
  | nil => exact absurd List.nil_prefix h
  | cons c t ih =>
    cases a with
    | nil => rfl
    | cons d a =>
      by_cases hd : d = c
      · subst hd
        have := ih (a := a) (by simpa [List.cons_prefix_cons] using h) (d :: b)
        simpa [run_lit_cons] using this
      · simp [run_lit_cons, hd]

lemma run_plus_none {p : Char → Bool} {a : Text} (h : a.takeWhile p = []) (k : Cont)
    (gs : List Text) (b : Text) : (Re.plus p).run k gs ⟨b, a⟩ = none := by
  cases a with
  | nil => rfl
  | cons c a =>
    cases hc : p c with
    | false => simp [run_plus_cons, hc]
    | true => simp [hc] at h

lemma run_plus_some {p : Char → Bool} {k : Cont} {gs : List Text} {b a : Text} {f : Found}
    (h : a.takeWhile p ≠ [])
    (hk : k gs ⟨(a.takeWhile p).reverse ++ b, a.dropWhile p⟩ = some f) :
    (Re.plus p).run k gs ⟨b, a⟩ = some f := by
  cases a with
  | nil => simp at h
  | cons c a =>
    cases hc : p c with
    | false => simp [hc] at h
    | true =>
      have hg : greedy p (k gs) (c :: b) a = some f := greedy_some _ _ (by simpa [hc] using hk)
      simpa [run_plus_cons, hc] using hg

lemma run_plus_possessive {p : Char → Bool} {k : Cont} {gs : List Text} {a : Text}
    (hk : ∀ b c a, p c = true → k gs ⟨b, c :: a⟩ = none) (h : a.takeWhile p ≠ []) (b : Text) :
    (Re.plus p).run k gs ⟨b, a⟩ = k gs ⟨(a.takeWhile p).reverse ++ b, a.dropWhile p⟩ := by
  cases a with
  | nil => simp at h
  | cons c a =>
    cases hc : p c with
    | false => simp [hc] at h
    | true => simp [run_plus_cons, hc, greedy_possessive hk]

lemma run_wordBoundary (isWord : Char → Bool) (k : Cont) (gs : List Text) :
    (Re.wordBoundary isWord).run k gs = fun cur => if cur.atBoundary isWord then k gs cur else none := rfl

lemma atBoundary_word {isWord : Char → Bool} {d : Char} (hd : isWord d = true) (b a : Text) :
    Cursor.atBoundary isWord ⟨d :: b, a⟩ = !(a.head?.map isWord).getD false := by
  simp [Cursor.atBoundary, hd]

lemma greedy_boundary {p isWord : Char → Bool} (hp : ∀ c, p c = true → isWord c = true)
    (k : Cursor → Option Found) {d : Char} (hd : isWord d = true) (b a : Text) :
    greedy p (fun cur => if cur.atBoundary isWord then k cur else none) (d :: b) a =
      if ((a.dropWhile p).head?.map isWord).getD false then none
      else k ⟨(a.takeWhile p).reverse ++ d :: b, a.dropWhile p⟩ := by
  induction a generalizing d b with
  | nil => simp [greedy, atBoundary_word hd]
  | cons c a ih =>
    cases hc : p c with
    | false => cases hw : isWord c <;> simp [greedy, hc, atBoundary_word hd, hw]
    | true =>
      have hstay : Cursor.atBoundary isWord ⟨d :: b, c :: a⟩ = false := by
        simp [atBoundary_word hd, hp c hc]
      rw [greedy, if_pos hc, hstay, ih (hp c hc)]
      simp [hc]

lemma run_plus_boundary {p isWord : Char → Bool} (hp : ∀ c, p c = true → isWord c = true) (k : Cont)
    (gs : List Text) (b a : Text) : (Re.plus p).run ((Re.wordBoundary isWord).run k) gs ⟨b, a⟩ =
      if a.takeWhile p = [] ∨ ((a.dropWhile p).head?.map isWord).getD false then none
      else k gs ⟨(a.takeWhile p).reverse ++ b, a.dropWhile p⟩ := by
  cases a with
  | nil => rfl
  | cons c a =>
    cases hc : p c with
    | false => simp [run_plus_cons, hc]
    | true =>
      have h := greedy_boundary hp (k gs) (hp c hc) b a
      simpa [run_plus_cons, run_wordBoundary, hc] using h

lemma scan_skip (r : Re) (u b a : Text) : r.scan u.length b (u ++ a) = r.scan 0 (u.reverse ++ b) a := by
  induction u generalizing b with
  | nil => rfl
  | cons c u ih => simpa [Re.scan] using ih (c :: b)

lemma scan_none {r : Re} (u b a : Text)
    (h : ∀ x y, u = x ++ y → y ≠ [] → r.matchAt (x.reverse ++ b) (y ++ a) = none) :
    r.scan 0 b (u ++ a) = r.scan 0 (u.reverse ++ b) a := by
  induction u generalizing b with
  | nil => rfl
  | cons c u ih =>
    have h0 : r.matchAt b (c :: (u ++ a)) = none := by simpa using h [] (c :: u) rfl (by simp)
    have hr := ih (c :: b) (fun x y hu hy => by simpa using h (c :: x) y (by simp [hu]) hy)
    simpa [Re.scan, h0] using hr

lemma scan_some {r : Re} {gs : List Text} {b u a : Text} (hu : u ≠ [])
    (h : r.matchAt b (u ++ a) = some (gs, a)) :
    r.scan 0 b (u ++ a) = gs :: r.scan 0 (u.reverse ++ b) a := by
  cases u with
  | nil => exact absurd rfl hu
  | cons c u =>
    have hs := scan_skip r u (c :: b) a
    simp only [List.cons_append] at h ⊢
    simp [Re.scan, h, hs]

lemma exists_matchAt {r : Re} {gs : List Text} {n : ℕ} {b a : Text} (h : gs ∈ r.scan n b a) :
    ∃ u v rest, a = u ++ v ∧ r.matchAt (u.reverse ++ b) v = some (gs, rest) := by
  induction a generalizing n b with
  | nil =>
    cases hm : r.matchAt b [] with
    | none => simp [Re.scan, hm] at h
    | some f =>
      simp only [Re.scan, hm, List.mem_singleton] at h
      exact ⟨[], [], f.2, rfl, by simp [hm, h]⟩
  | cons c a ih =>
    have later {m : ℕ} (hl : gs ∈ r.scan m (c :: b) a) :
        ∃ u v rest, c :: a = u ++ v ∧ r.matchAt (u.reverse ++ b) v = some (gs, rest) := by
      obtain ⟨u, v, rest, rfl, hv⟩ := ih hl
      exact ⟨c :: u, v, rest, rfl, by simpa using hv⟩
    cases n with
    | succ n => exact later h
    | zero =>
      cases hm : r.matchAt b (c :: a) with
      | none =>
        simp only [Re.scan, hm] at h
        exact later h
      | some f =>
        simp only [Re.scan, hm, List.mem_cons] at h
        rcases h with rfl | h
        · exact ⟨[], c :: a, f.2, rfl, by simp [hm]⟩
        · exact later h

lemma mem_findall {r : Re} {gs : List Text} {t : Text} (h : gs ∈ r.findall t) :
    ∃ u v rest, t = u ++ v ∧ r.matchAt u.reverse v = some (gs, rest) := by
  simpa using exists_matchAt h

structure Anchored (r : Re) : Prop where
  start : ∀ b a, Cursor.atLineStart ⟨b, a⟩ = false → r.matchAt b a = none
  blank : ∀ b c a, isSpace c = true → r.matchAt b (c :: a) = none
  stop : ∀ b, r.matchAt b [] = none

def Ends (tail : Text) : Prop := tail = [] ∨ ∃ t, tail = '\n' :: t

lemma prefix_of_ends {p l tail : Text} (hp : '\n' ∉ p) (ht : Ends tail) (h : p <+: l ++ tail) : p <+: l := by
  induction p generalizing l with
  | nil => exact List.nil_prefix
  | cons c p ih =>
    simp only [List.mem_cons, not_or] at hp
    cases l with
    | nil =>
      rcases ht with rfl | ⟨t, rfl⟩
      · simp at h
      · obtain ⟨rfl, -⟩ := List.cons_prefix_cons.mp h
        exact absurd rfl hp.1
    | cons d l =>
      obtain ⟨rfl, hq⟩ := List.cons_prefix_cons.mp h
      exact List.cons_prefix_cons.mpr ⟨rfl, ih hp.2 hq⟩

def PassesLine (r : Re) (l : Text) : Prop :=
  ∀ b tail, Ends tail → r.matchAt b (l ++ tail) = none

def ReadsLine (r : Re) (l : Text) (gs : List Text) : Prop :=
  ∀ b tail, Cursor.atLineStart ⟨b, l⟩ = true → Ends tail →
    ∃ ws rest, tail = ws ++ rest ∧ (∀ c ∈ ws, isSpace c = true) ∧
      r.matchAt b (l ++ tail) = some (gs, rest)

lemma atLineStart_append {x b a : Text} (hx : '\n' ∉ x) (hne : x ≠ []) :
    Cursor.atLineStart ⟨x.reverse ++ b, a⟩ = false := by
  obtain ⟨y, c, rfl⟩ : ∃ y c, x = y ++ [c] :=
    ⟨x.dropLast, x.getLast hne, (List.dropLast_append_getLast hne).symm⟩
  simp only [List.mem_append, List.mem_singleton, not_or] at hx
  simp [Cursor.atLineStart, Ne.symm hx.2]

lemma scan_blank {r : Re} (hr : Anchored r) (ws b a : Text) (h : ∀ c ∈ ws, isSpace c = true) :
    r.scan 0 b (ws ++ a) = r.scan 0 (ws.reverse ++ b) a := by
  apply scan_none ws b a
  rintro x (_ | ⟨c, y⟩) rfl hy
  · exact absurd rfl hy
  · exact hr.blank _ _ _ (h c (by simp))

lemma scan_passes {r : Re} (hr : Anchored r) {l b tail : Text} (hl : '\n' ∉ l)
    (hp : PassesLine r l) (ht : Ends tail) :
    r.scan 0 b (l ++ tail) = r.scan 0 (l.reverse ++ b) tail := by
  apply scan_none l b tail
  intro x y hxy hy
  by_cases hx : x = []
  · subst hx
    simp only [List.nil_append] at hxy
    exact hxy ▸ hp _ tail ht
  · exact hr.start _ _ (atLineStart_append (fun hm => hl (by simp [hxy, hm])) hx)

lemma scan_reads {r : Re} (hr : Anchored r) {l b tail : Text} {gs : List Text} (hne : l ≠ [])
    (hb : Cursor.atLineStart ⟨b, l⟩ = true) (hp : ReadsLine r l gs) (ht : Ends tail) :
    r.scan 0 b (l ++ tail) = gs :: r.scan 0 (l.reverse ++ b) tail := by
  obtain ⟨ws, rest, rfl, hws, hm⟩ := hp b tail hb ht
  have hs := scan_some (u := l ++ ws) (by simp [hne]) (by simpa using hm)
  rw [scan_blank hr ws _ rest hws]
  simpa using hs

def StepsOver (r : Re) (l : Text) (found : Option (List Text)) : Prop :=
  ∀ b tail, Cursor.atLineStart ⟨b, l⟩ = true → Ends tail →
    r.scan 0 b (l ++ tail) = found.toList ++ r.scan 0 (l.reverse ++ b) tail

lemma findall_steps {r : Re} (hr : Anchored r) (h : Text → Option (List Text)) (t : Text)
    (hl : ∀ l ∈ lines t, StepsOver r l (h l)) : r.findall t = (lines t).filterMap h := by
  have key (b : Text) (hb : Cursor.atLineStart ⟨b, []⟩ = true) : r.scan 0 b t = (lines t).filterMap h := by
    induction t using line_induction generalizing b with
    | last l hn =>
      have hp := hl l (by simp [lines_single hn]) b [] hb (.inl rfl)
      rw [List.append_nil] at hp
      rw [lines_single hn, filterMap_cons_toList, hp]
      simp [Re.scan, hr.stop]
    | line l t hn ih =>
      have hp := hl l (by simp [lines_cons hn]) b ('\n' :: t) hb (.inr ⟨t, rfl⟩)
      have hs := ih (fun m hm => hl m (by simp [lines_cons hn, hm])) ('\n' :: (l.reverse ++ b)) rfl
      have hb' := scan_blank hr ['\n'] (l.reverse ++ b) t (by simp)
      simp only [List.singleton_append, List.reverse_singleton, hs] at hb'
      rw [lines_cons hn, filterMap_cons_toList, hp, hb']
  exact key [] rfl

lemma findall_lines {r : Re} (hr : Anchored r) (h : Text → Option (List Text)) (t : Text)
    (hl : ∀ l ∈ lines t, match h l with
      | none => PassesLine r l
      | some gs => l ≠ [] ∧ ReadsLine r l gs) :
    r.findall t = (lines t).filterMap h := by
  apply findall_steps hr
  intro l hmem b tail hb ht
  have hp := hl l hmem
  cases hh : h l with
  | none =>
    rw [hh] at hp
    exact scan_passes hr (newline_not_mem hmem) hp ht
  | some gs =>
    rw [hh] at hp
    exact scan_reads hr hp.1 hb hp.2 ht

end ShMonitor.Texts.Regex

import ShMonitor.Lra.Slots

/-! The pass that takes out `-m4`, over the slots of an option list. -/

namespace ShMonitor.Lra.DgOptions

open Texts Texts.Regex
open Bisect.ShSim (isIfs)

def m4Rest : Text → Option (Text × Text)
  | '-' :: 'm' :: '4' :: ' ' :: a => some ([' '], a)
  | '-' :: 'm' :: '4' :: '\n' :: a => some ([], '\n' :: a)
  | ['-', 'm', '4'] => some ([], [])
  | _ => none

lemma m4Rest_eq_none {a : Text} (h : ¬ m4 <+: a) : m4Rest a = none := by
  unfold m4Rest
  split
  · exact absurd ⟨_, rfl⟩ h
  · exact absurd ⟨_, rfl⟩ h
  · exact absurd ⟨_, rfl⟩ h
  · rfl

lemma run_m4 (gs : List Text) (b a : Text) :
    (Re.cat [.lit m4, .group (.alt (.chr (· == ' ')) .eol)]).run (fun gs cur => some (gs, cur.after))
      gs ⟨b, a⟩ = (m4Rest a).map (fun m => (gs ++ [m.1], m.2)) := by
  rw [run_cat_cons]
  by_cases ha : m4 <+: a
  · obtain ⟨a, rfl⟩ := ha
    rw [run_lit]
    match a with
    | [] => rfl
    | c :: a =>
      by_cases hc : c = ' '
      · subst hc
        simp [Re.run, m4Rest, m4]
      · by_cases hn : c = '\n'
        · subst hn
          simp [Re.run, m4Rest, m4, Cursor.atLineEnd]
        · have hnone : m4Rest (m4 ++ c :: a) = none := by
            simp [m4Rest, m4, hc, hn]
          simp [Re.run, Cursor.atLineEnd, hc, hn, hnone]
  · rw [run_lit_none ha, m4Rest_eq_none ha]
    rfl

lemma m4_matchAt (b a : Text) : m4Re.matchAt b a =
    (if Cursor.atLineStart ⟨b, a⟩ then (m4Rest a).map (fun m => ([[], m.1], m.2)) else none).or
      (match a with
        | [] => none
        | c :: a => if c == ' ' then (m4Rest a).map (fun m => ([[' '], m.1], m.2)) else none) := by
  have hcat : ∀ k : Cont, m4Re.run k = (Re.group (.alt .bol (.chr (· == ' ')))).run
      ((Re.cat [.lit m4, .group (.alt (.chr (· == ' ')) .eol)]).run k) := fun k => rfl
  rw [Re.matchAt, hcat, run_group]
  simp only [Re.run, run_m4]
  congr 1
  · simp
  · cases a with
    | nil => rfl
    | cons c a =>
      by_cases hc : c = ' '
      · subst hc
        simp
      · simp [hc]

lemma m4_matchAt_start {a : Text} {m : Text × Text} (h : m4Rest a = some m) :
    m4Re.matchAt [] a = some ([[], m.1], m.2) := by
  rw [m4_matchAt, h]
  rfl

lemma m4_matchAt_blank (b a : Text) :
    m4Re.matchAt b (' ' :: a) = (m4Rest a).map (fun m => ([[' '], m.1], m.2)) := by
  have hnone : m4Rest (' ' :: a) = none := rfl
  rw [m4_matchAt, hnone, Option.map_none, ite_self, Option.none_or]
  rfl

lemma m4_matchAt_none {b a : Text} (hb : Cursor.atLineStart ⟨b, a⟩ = false ∨ m4Rest a = none)
    (ha : ∀ c ∈ a.head?, c ≠ ' ') : m4Re.matchAt b a = none := by
  rw [m4_matchAt]
  have hbol : (if Cursor.atLineStart ⟨b, a⟩ then (m4Rest a).map (fun m => ([[], m.1], m.2)) else none) =
    none := by
    obtain hb | hb := hb
    · rw [hb]
      rfl
    · rw [hb, Option.map_none, ite_self]
  rw [hbol, Option.none_or]
  cases a with
  | nil => rfl
  | cons c a => exact if_neg (by simpa using ha c rfl)

def Slot.clear (s : Slot) : Slot := s.edit (fun _ => []) List.nil_subset

def m4Left : Bool → List Slot → List Slot
  | _, [] => []
  | unread, s :: ss =>
    if unread = true ∧ s.gap = .blank ∧ s.option = m4 ∧ ∀ next ∈ ss.head?, next.gap = .blank then
      s.clear :: m4Left false ss
    else s :: m4Left true ss

lemma atLineStart_of_ne {c : Char} (hc : c ≠ '\n') (b a : Text) : Cursor.atLineStart ⟨c :: b, a⟩ = false := by
  simpa [Cursor.atLineStart] using hc

lemma ne_of_word {w : Text} (hw : ∀ c ∈ w, isIfs c = false) {d : Char} (hd : isIfs d = true) :
    ∀ c ∈ w, c ≠ d := by
  rintro c hc rfl
  rw [hw c hc] at hd
  cases hd

lemma m4_passes {b w : Text} (hb : Cursor.atLineStart ⟨b, []⟩ = false) (hw : ∀ c ∈ w, isIfs c = false)
    (t : Text) :
    m4Re.substitute List.flatten 0 b (w ++ t) = w ++ m4Re.substitute List.flatten 0 (w.reverse ++ b) t := by
  apply substitute_passes
  intro x y hxy hy
  apply m4_matchAt_none
  · refine Or.inl ?_
    cases hx : x.reverse with
    | nil => exact hb
    | cons c z =>
      have hc : c ∈ w := by
        rw [hxy]
        exact List.mem_append_left y (List.mem_reverse.mp (hx ▸ List.mem_cons_self))
      exact atLineStart_of_ne (ne_of_word hw (d := '\n') rfl c hc) _ _
  · obtain ⟨c, y, rfl⟩ := List.exists_cons_of_ne_nil hy
    rintro d hd
    obtain rfl := Option.some.inj hd
    exact ne_of_word hw (d := ' ') rfl c (by simp [hxy])

lemma m4Rest_cons {s : Slot} (hs : s.gap = .blank) (ss : List Slot) :
    m4Rest (m4 ++ render (s :: ss)) = some ([' '], s.option ++ render ss) := by
  rw [render_cons, hs]
  rfl

lemma m4Rest_none {w : Text} (hw : ∀ c ∈ w, isIfs c = false) {ss : List Slot}
    (hflat : ∀ s ∈ ss, s.gap ≠ .newline)
    (h : w = m4 → ∃ next ∈ ss.head?, next.gap ≠ .blank) : m4Rest (w ++ render ss) = none := by
  by_cases hprefix : m4 <+: w ++ render ss
  · have hfree : ∀ c ∈ m4, isIfs c = false := none_of_any rfl
    obtain ⟨x, rfl⟩ := prefix_of_stop hfree (render_stop ss) hprefix
    cases x with
    | nil =>
      obtain ⟨next, hnext, hgap⟩ := h (List.append_nil m4)
      obtain ⟨rest, rfl⟩ := List.head?_eq_some_iff.mp hnext
      have htab : next.gap = .tab := by
        cases hg : next.gap with
        | blank => exact absurd hg hgap
        | tab => rfl
        | newline => exact absurd hg (hflat next List.mem_cons_self)
      rw [render_cons, htab]
      rfl
    | cons c x =>
      have hc : c ∈ m4 ++ c :: x := List.mem_append_right m4 List.mem_cons_self
      have hblank : c ≠ ' ' := ne_of_word hw rfl c hc
      have hnewline : c ≠ '\n' := ne_of_word hw rfl c hc
      simp [m4Rest, m4, hblank, hnewline]
  · exact m4Rest_eq_none hprefix

lemma m4Re_nil (b : Text) : m4Re.substitute List.flatten 0 b [] = [] :=
  substitute_nil (m4_matchAt_none (Or.inr rfl) (fun _ hc => nomatch hc)) 0

def ReadsOn (ss : List Slot) : Prop :=
  ∀ b s rest, ss = s :: rest → Cursor.atLineStart ⟨b, []⟩ = false →
    s.gap.char :: m4Re.substitute List.flatten 0 b (s.option ++ render rest) = render (m4Left false ss)

lemma m4_consumes {b front : Text} {ss : List Slot}
    (hmatch : ∀ m, m4Rest (m4 ++ render ss) = some m →
      m4Re.matchAt b (front ++ (m4 ++ render ss)) = some ([front, m.1], m.2))
    (hnext : ∀ next ∈ ss.head?, next.gap = .blank) (hread : ReadsOn ss) :
    m4Re.substitute List.flatten 0 b (front ++ (m4 ++ render ss)) = front ++ render (m4Left false ss) := by
  cases ss with
  | nil =>
    have hne : front ++ m4 ≠ [] := List.append_ne_nil_of_right_ne_nil front (List.cons_ne_nil _ _)
    have hsome : m4Re.matchAt b ((front ++ m4) ++ []) = some ([front, []], []) := by
      rw [List.append_assoc]
      exact hmatch ([], []) rfl
    have hsub := substitute_some (f := List.flatten) hne hsome
    rw [m4Re_nil, List.append_assoc] at hsub
    exact hsub.trans (by simp [m4Left, render])
  | cons n ss =>
    have hn : n.gap = .blank := hnext n rfl
    have htext : m4 ++ render (n :: ss) = "-m4 ".toList ++ (n.option ++ render ss) := by
      rw [render_cons, hn]
      rfl
    have hne : front ++ "-m4 ".toList ≠ [] := List.append_ne_nil_of_right_ne_nil front (List.cons_ne_nil _ _)
    have hsome : m4Re.matchAt b ((front ++ "-m4 ".toList) ++ (n.option ++ render ss)) =
        some ([front, [' ']], n.option ++ render ss) := by
      rw [List.append_assoc, ← htext]
      exact hmatch ([' '], _) (m4Rest_cons hn ss)
    have hrest := hread ((front ++ "-m4 ".toList).reverse ++ b) n ss rfl (by rw [List.reverse_append]; rfl)
    rw [hn] at hrest
    rw [htext, ← List.append_assoc, substitute_some hne hsome, ← hrest]
    simp [Gap.char]

lemma render_clear {s : Slot} (hs : s.gap = .blank) (ss : List Slot) :
    render (s.clear :: ss) = ' ' :: render ss := by
  have hclear : s.clear.text = [' '] := congrArg (fun g => [Gap.char g]) hs
  exact congrArg (· ++ render ss) hclear

lemma m4_render {ss : List Slot} (hflat : ∀ s ∈ ss, s.gap ≠ .newline) :
    (∀ b, m4Re.substitute List.flatten 0 b (render ss) = render (m4Left true ss)) ∧ ReadsOn ss := by
  induction ss with
  | nil => exact ⟨m4Re_nil, fun b s rest h => nomatch h⟩
  | cons s ss ih =>
    have hflat' : ∀ t ∈ ss, t.gap ≠ .newline := fun t ht => hflat t (List.mem_cons_of_mem s ht)
    obtain ⟨hgap, hread⟩ := ih hflat'
    have hword : ∀ b, Cursor.atLineStart ⟨b, []⟩ = false →
        m4Re.substitute List.flatten 0 b (s.option ++ render ss) = s.option ++ render (m4Left true ss) := by
      intro b hb
      rw [m4_passes hb s.word, hgap]
    have hinner : ∀ b, Cursor.atLineStart ⟨s.gap.char :: b, []⟩ = false := by
      intro b
      apply atLineStart_of_ne
      intro hchar
      cases hg : s.gap with
      | blank => rw [hg] at hchar; cases hchar
      | tab => rw [hg] at hchar; cases hchar
      | newline => exact hflat s List.mem_cons_self hg
    refine ⟨?_, ?_⟩
    · intro b
      rw [m4Left, render_cons]
      by_cases hmatch : true = true ∧ s.gap = .blank ∧ s.option = m4 ∧ ∀ next ∈ ss.head?, next.gap = .blank
      · obtain ⟨-, hblank, hm4, hnext⟩ := hmatch
        have hfound : ∀ m, m4Rest (m4 ++ render ss) = some m →
            m4Re.matchAt b ([' '] ++ (m4 ++ render ss)) = some ([[' '], m.1], m.2) := by
          intro m hm
          rw [List.singleton_append, m4_matchAt_blank, hm]
          rfl
        rw [if_pos ⟨rfl, hblank, hm4, hnext⟩, hm4, hblank, render_clear hblank]
        exact m4_consumes hfound hnext hread
      · have hnone : m4Re.matchAt b (s.gap.char :: (s.option ++ render ss)) = none := by
          cases hg : s.gap with
          | newline => exact absurd hg (hflat s List.mem_cons_self)
          | tab => exact m4_matchAt_none (Or.inr rfl) (by rintro c hc rfl; cases Option.some.inj hc)
          | blank =>
            have hrest : m4Rest (s.option ++ render ss) = none := by
              apply m4Rest_none s.word hflat'
              intro hm4
              by_contra hnext
              exact hmatch ⟨rfl, hg, hm4, by simpa using hnext⟩
            exact (m4_matchAt_blank b _).trans (by rw [hrest]; rfl)
        rw [if_neg hmatch, substitute_none hnone, hword _ (hinner b)]
        rfl
    · rintro b t rest heq hb
      obtain ⟨rfl, rfl⟩ := List.cons.inj heq
      rw [m4Left, if_neg (by simp), hword b hb]
      rfl

lemma m4_sub {s : Slot} {ss : List Slot} (hs : s.gap = .blank) (hflat : ∀ t ∈ ss, t.gap ≠ .newline) :
    ' ' :: m4Re.sub List.flatten (s.option ++ render ss) = render (m4Left true (s :: ss)) := by
  obtain ⟨hgap, hread⟩ := m4_render hflat
  rw [m4Left, Re.sub]
  by_cases hmatch : true = true ∧ s.gap = .blank ∧ s.option = m4 ∧ ∀ next ∈ ss.head?, next.gap = .blank
  · obtain ⟨-, -, hm4, hnext⟩ := hmatch
    have hfound : ∀ m, m4Rest (m4 ++ render ss) = some m →
        m4Re.matchAt [] ([] ++ (m4 ++ render ss)) = some ([[], m.1], m.2) := fun m hm => m4_matchAt_start hm
    rw [if_pos ⟨rfl, hs, hm4, hnext⟩, hm4, render_clear hs]
    exact congrArg (' ' :: ·) (m4_consumes hfound hnext hread)
  · have hrest : m4Rest (s.option ++ render ss) = none := by
      apply m4Rest_none s.word hflat
      intro hm4
      by_contra hnext
      exact hmatch ⟨rfl, hs, hm4, by simpa using hnext⟩
    have hkept : m4Re.substitute List.flatten 0 [] (s.option ++ render ss) =
      s.option ++ render (m4Left true ss) := by
      cases hoption : s.option with
      | nil => exact hgap []
      | cons c w =>
        have hword : ∀ d ∈ c :: w, isIfs d = false := hoption ▸ s.word
        have hnone : m4Re.matchAt [] (c :: (w ++ render ss)) = none := by
          apply m4_matchAt_none (Or.inr (by rwa [hoption] at hrest))
          rintro d hd
          obtain rfl := Option.some.inj hd
          exact ne_of_word hword rfl c List.mem_cons_self
        have hinner : Cursor.atLineStart ⟨[c], []⟩ = false :=
          atLineStart_of_ne (ne_of_word hword rfl c List.mem_cons_self) [] []
        rw [List.cons_append, substitute_none hnone,
          m4_passes hinner (fun d hd => hword d (List.mem_cons_of_mem c hd)), hgap]
        rfl
    rw [if_neg hmatch, hkept, render_cons, hs]
    rfl

lemma m4_not_mem_left {ss : List Slot} (hflat : ∀ s ∈ ss, s.gap ≠ .newline) (unread : Bool) :
    (∀ s ∈ m4Left unread ss, s.option ≠ m4) ↔
      M4Apart ss ∧ (unread = false → ∀ s ∈ ss.head?, s.option ≠ m4) := by
  induction ss generalizing unread with
  | nil =>
    apply iff_of_true
    · exact fun _ hs => nomatch hs
    · exact ⟨trivial, fun _ _ hs => nomatch hs⟩
  | cons s ss ih =>
    have hflat' : ∀ t ∈ ss, t.gap ≠ .newline := fun t ht => hflat t (List.mem_cons_of_mem s ht)
    have hblank : ∀ t ∈ s :: ss, t.gap ≠ .tab → t.gap = .blank := by
      intro t ht htab
      have hnewline := hflat t ht
      cases hg : t.gap with
      | blank => rfl
      | tab => exact absurd hg htab
      | newline => exact absurd hg hnewline
    have htail : ∀ t ∈ ss.head?, t ∈ s :: ss := fun t ht => List.mem_cons_of_mem s (List.mem_of_head? ht)
    rw [m4Left, M4Apart]
    by_cases hm4 : s.option = m4
    · by_cases hread : unread = true ∧ s.gap = .blank ∧ ∀ next ∈ ss.head?, next.gap = .blank
      · obtain ⟨rfl, hgap, hnext⟩ := hread
        have hclear : s.clear.option ≠ m4 := (List.cons_ne_nil _ _).symm
        rw [if_pos ⟨rfl, hgap, hm4, hnext⟩, List.forall_mem_cons, and_iff_right hclear, ih hflat' false]
        constructor
        · rintro ⟨hapart, hhead⟩
          refine ⟨⟨fun _ => ⟨?_, ?_⟩, hapart⟩, fun h => nomatch h⟩
          · rw [hgap]
            decide
          · intro next hmem
            rw [hnext next hmem]
            exact ⟨by decide, hhead rfl next hmem⟩
        · rintro ⟨⟨hself, hapart⟩, -⟩
          exact ⟨hapart, fun _ next hmem => ((hself hm4).2 next hmem).2⟩
      · rw [if_neg (fun h => hread ⟨h.1, h.2.1, h.2.2.2⟩)]
        apply iff_of_false
        · intro h
          exact h s List.mem_cons_self hm4
        · rintro ⟨⟨hself, -⟩, hhead⟩
          obtain ⟨hgap, hnext⟩ := hself hm4
          apply hread
          refine ⟨?_, hblank s List.mem_cons_self hgap, ?_⟩
          · by_contra hunread
            exact hhead (by simpa using hunread) s rfl hm4
          · intro next hmem
            exact hblank next (htail next hmem) (hnext next hmem).1
    · rw [if_neg (fun h => hm4 h.2.2.1), List.forall_mem_cons, and_iff_right hm4, ih hflat' true]
      constructor
      · rintro ⟨hapart, -⟩
        refine ⟨⟨fun h => absurd h hm4, hapart⟩, fun _ t ht => ?_⟩
        obtain rfl := Option.some.inj ht
        exact hm4
      · rintro ⟨⟨-, hapart⟩, -⟩
        exact ⟨hapart, fun h => nomatch h⟩

lemma filter_left {p : Text → Bool} (hm4 : p m4 = false) (hnil : p [] = false) (unread : Bool)
    (ss : List Slot) :
    ((m4Left unread ss).map Slot.option).filter p = (ss.map Slot.option).filter p := by
  induction ss generalizing unread with
  | nil => rfl
  | cons s ss ih =>
    rw [m4Left]
    split
    case isTrue h =>
      have hclear : s.clear.option = [] := rfl
      rw [List.map_cons, List.map_cons, hclear, h.2.2.1, List.filter_cons_of_neg (by simp [hnil]),
        List.filter_cons_of_neg (by simp [hm4]), ih]
    case isFalse => rw [List.map_cons, List.map_cons, List.filter_cons, List.filter_cons, ih]

lemma weight_left (unread : Bool) (ss : List Slot) :
    (m4Left unread ss).map (fun s => weight s.option) = ss.map (fun s => weight s.option) := by
  induction ss generalizing unread with
  | nil => rfl
  | cons s ss ih =>
    rw [m4Left]
    split
    case isTrue h =>
      have hclear : weight s.clear.option = weight s.option := by
        rw [h.2.2.1]
        rfl
      rw [List.map_cons, List.map_cons, ih, hclear]
    case isFalse => rw [List.map_cons, List.map_cons, ih]

lemma m4_sub_options {o : Options} (hflat : ∀ s ∈ o.rest, s.gap ≠ .newline) :
    ' ' :: m4Re.sub List.flatten o.text = render (m4Left true o.slots) :=
  m4_sub (s := ⟨.blank, o.first, o.first_free⟩) rfl hflat

lemma totalWeight_m4 {t : Text} (hquote : '"' ∉ t) (hnewline : '\n' ∉ t) :
    totalWeight (m4Re.sub List.flatten t) = totalWeight t := by
  obtain ⟨o, rfl⟩ := exists_options t hquote
  have hflat : ∀ s ∈ o.rest, s.gap ≠ .newline :=
    gap_ne_newline (fun hm => hnewline (List.mem_append_right o.first hm))
  rw [← totalWeight_blank, m4_sub_options hflat, totalWeight_render, weight_left, ← totalWeight_render,
    o.render_slots, totalWeight_blank]

end ShMonitor.Lra.DgOptions

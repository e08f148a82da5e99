import ShMonitor.Lra.DgOptions

/-! What `extract_dg_options` finds of the directive: all of its string, or nothing where the string
does not end in the first fifty lines. -/

namespace ShMonitor.Lra.DgOptions

open Texts Texts.Regex

lemma headLines_isPrefix (n : ℕ) (t : Text) : headLines n t <+: t := by
  induction t generalizing n with
  | nil => cases n <;> exact List.prefix_rfl
  | cons c t ih =>
    cases n with
    | zero => exact List.nil_prefix
    | succ n => exact List.cons_prefix_cons.mpr ⟨rfl, ih _⟩

lemma headLines_append {n : ℕ} {p : Text} (h : p.count '\n' < n) (t : Text) :
    headLines n (p ++ t) = p ++ headLines (n - p.count '\n') t := by
  induction p generalizing n with
  | nil => rfl
  | cons c p ih =>
    obtain ⟨n, rfl⟩ := Nat.exists_eq_add_one_of_ne_zero (Nat.ne_zero_of_lt h)
    by_cases hc : c = '\n'
    · subst hc
      rw [List.count_cons_self] at h ⊢
      rw [List.cons_append, headLines, if_pos rfl, ih (by omega), List.cons_append, Nat.add_sub_add_right]
    · rw [List.count_cons_of_ne hc] at h ⊢
      rw [List.cons_append, headLines, if_neg hc, ih h, List.cons_append]

lemma headLines_short {n : ℕ} {p : Text} (h : n ≤ p.count '\n') (t : Text) : headLines n (p ++ t) <+: p := by
  induction p generalizing n with
  | nil =>
    obtain rfl : n = 0 := Nat.le_zero.mp h
    rw [headLines]
  | cons c p ih =>
    cases n with
    | zero =>
      rw [headLines]
      exact List.nil_prefix
    | succ n =>
      rw [List.cons_append, headLines, List.cons_prefix_cons]
      refine ⟨rfl, ?_⟩
      by_cases hc : c = '\n'
      · subst hc
        rw [List.count_cons_self] at h
        rw [if_pos rfl]
        exact ih (by omega)
      · rw [List.count_cons_of_ne hc] at h
        rw [if_neg hc]
        exact ih h

def framed (gap body : Text) : Text := "dg-options".toList ++ (gap ++ '"' :: (body ++ ['"']))

lemma quoted_append (name gap body rest : Text) :
    (name ++ (gap ++ '"' :: (body ++ ['"']))) ++ rest = name ++ (gap ++ '"' :: (body ++ '"' :: rest)) := by
  rw [List.append_assoc, List.append_assoc, List.cons_append, List.append_assoc, List.singleton_append]

lemma framed_append (gap body rest : Text) :
    framed gap body ++ rest = "dg-options".toList ++ (gap ++ '"' :: (body ++ '"' :: rest)) :=
  quoted_append "dg-options".toList gap body rest

def stringRe : Re := .cat [.star (· != '"'), .chr (· == '"')]

def bodyRe : Re := .cat [.star isPosixSpace, .chr (· == '"'), .star (· != '"'), .chr (· == '"')]

lemma run_quote (k : Cont) (gs : List Text) (b : Text) (c : Char) (a : Text) :
    (Re.chr (· == '"')).run k gs ⟨b, c :: a⟩ = if c == '"' then k gs ⟨c :: b, a⟩ else none := rfl

lemma run_string {body : Text} (hbody : '"' ∉ body) (k : Cont) (gs : List Text) (b rest : Text) :
    stringRe.run k gs ⟨b, body ++ '"' :: rest⟩ = k gs ⟨'"' :: (body.reverse ++ b), rest⟩ := by
  have hword : ∀ c ∈ body, (c != '"') = true := fun c hc => bne_iff_ne.mpr (fun h => hbody (h ▸ hc))
  obtain ⟨htake, hdrop⟩ := takeWhile_word (a := '"' :: rest) hword (by rintro c t ⟨⟩; rfl)
  rw [stringRe, run_cat_cons, run_star, greedy_possessive, htake, hdrop]
  · rfl
  · intro b c a hc
    rw [run_cat_cons, run_quote, if_neg (by simpa using hc)]

lemma run_string_sound {k : Cont} {gs : List Text} {b a : Text} {found : Found}
    (h : stringRe.run k gs ⟨b, a⟩ = some found) : ∃ body rest, a = body ++ '"' :: rest ∧ '"' ∉ body := by
  rw [stringRe, run_cat_cons, run_star] at h
  obtain ⟨body, rest, rfl, hbody, h⟩ := greedy_sound h
  have hquote : '"' ∉ body := fun hm => by simpa using hbody _ hm
  cases rest with
  | nil => cases h
  | cons c rest =>
    rw [run_cat_cons, run_quote] at h
    by_cases hc : (c == '"') = true
    · rw [beq_iff_eq.mp hc]
      exact ⟨body, rest, rfl, hquote⟩
    · rw [if_neg hc] at h
      cases h

lemma run_body {gap body : Text} (hgap : ∀ c ∈ gap, isPosixSpace c = true) (hbody : '"' ∉ body) (k : Cont)
    (gs : List Text) (b rest : Text) : bodyRe.run k gs ⟨b, gap ++ '"' :: (body ++ '"' :: rest)⟩ =
      k gs ⟨'"' :: (body.reverse ++ '"' :: (gap.reverse ++ b)), rest⟩ := by
  obtain ⟨htake, hdrop⟩ := takeWhile_word (a := '"' :: (body ++ '"' :: rest)) hgap (by rintro c t ⟨⟩; rfl)
  rw [bodyRe, run_cat_cons, run_star, greedy_possessive, htake, hdrop]
  · exact run_string hbody k gs _ rest
  · intro b c a hc
    rw [run_cat_cons, run_quote, if_neg]
    intro hquote
    rw [beq_iff_eq.mp hquote] at hc
    cases hc

lemma run_body_sound {k : Cont} {gs : List Text} {b a : Text} {found : Found}
    (h : bodyRe.run k gs ⟨b, a⟩ = some found) : ∃ gap body rest, a = gap ++ '"' :: (body ++ '"' :: rest) ∧
      (∀ c ∈ gap, isPosixSpace c = true) ∧ '"' ∉ body := by
  rw [bodyRe, run_cat_cons, run_star] at h
  obtain ⟨gap, rest, rfl, hgap, h⟩ := greedy_sound h
  cases rest with
  | nil => cases h
  | cons c rest =>
    rw [run_cat_cons, run_quote] at h
    by_cases hc : (c == '"') = true
    · rw [if_pos hc] at h
      obtain ⟨body, rest, rfl, hbody⟩ := run_string_sound h
      rw [beq_iff_eq.mp hc]
      exact ⟨gap, body, rest, rfl, hgap, hbody⟩
    · rw [if_neg hc] at h
      cases h

lemma run_directive (k : Cont) (gs : List Text) (b a : Text) : directiveRe.run k gs ⟨b, a⟩ =
    (Re.lit "dg-options".toList).run
      (bodyRe.run (fun gs' cur => k (gs' ++ [a.take (a.length - cur.after.length)]) cur)) gs ⟨b, a⟩ := rfl

lemma directive_found {gap body : Text} (hgap : ∀ c ∈ gap, isPosixSpace c = true)
    (hbody : '"' ∉ body) (b rest : Text) :
    directiveRe.matchAt b (framed gap body ++ rest) = some ([framed gap body], rest) := by
  have htext := framed_append gap body rest
  rw [Re.matchAt, run_directive]
  have hrun := fun k : Cont => run_body hgap hbody k [] ("dg-options".toList.reverse ++ b) rest
  have hlit := fun k : Cont => run_lit "dg-options".toList k [] b (gap ++ '"' :: (body ++ '"' :: rest))
  rw [← htext] at hlit
  rw [hlit, hrun, take_consumed]
  rfl

lemma opens_of_match {b t : Text} {found : Found} (h : directiveRe.matchAt b t = some found) : Opens t := by
  rw [Re.matchAt, run_directive] at h
  by_cases ht : "dg-options".toList <+: t
  · obtain ⟨t, rfl⟩ := ht
    rw [run_lit] at h
    obtain ⟨gap, body, rest, rfl, hgap, hbody⟩ := run_body_sound h
    exact ⟨gap, body, rest, rfl, hgap, hbody⟩
  · rw [run_lit_none ht] at h
    cases h

lemma Opens.append {t : Text} (h : Opens t) (u : Text) : Opens (t ++ u) := by
  obtain ⟨gap, body, rest, rfl, hgap, hbody⟩ := h
  refine ⟨gap, body, rest ++ u, ?_, hgap, hbody⟩
  rw [List.append_assoc, List.append_assoc, List.cons_append, List.append_assoc, List.cons_append]

lemma count_quote_of_opens {t : Text} (h : Opens t) : 2 ≤ t.count '"' := by
  obtain ⟨gap, body, rest, rfl, -, -⟩ := h
  simp only [List.count_append, List.count_cons_self]
  omega

lemma mem_flattened {c : Char} (hc : c ≠ ' ') {t : Text} (h : c ∈ flattened t) : c ∈ t := by
  obtain ⟨d, hd, heq⟩ := List.mem_map.mp h
  split at heq
  · exact absurd heq.symm hc
  · exact heq ▸ hd

lemma newline_not_mem_flattened (t : Text) : '\n' ∉ flattened t := by
  intro hm
  obtain ⟨d, -, heq⟩ := List.mem_map.mp hm
  split at heq
  case isTrue => cases heq
  case isFalse h => exact h heq

lemma count_flattened (t : Text) : (flattened t).count '"' = t.count '"' := by
  induction t with
  | nil => rfl
  | cons c t ih =>
    have hcons : flattened (c :: t) = (if c = '\n' then ' ' else c) :: flattened t := rfl
    rw [hcons]
    by_cases hc : c = '\n'
    · subst hc
      rw [if_pos rfl, List.count_cons_of_ne (by decide), List.count_cons_of_ne (by decide), ih]
    · rw [if_neg hc, List.count_cons, List.count_cons, ih]

lemma isPosixSpace_flattened {gap : Text} (h : ∀ c ∈ gap, isPosixSpace c = true) :
    ∀ c ∈ flattened gap, isPosixSpace c = true := by
  intro c hc
  by_cases hblank : c = ' '
  · rw [hblank]
    rfl
  · exact h c (mem_flattened hblank hc)

lemma quote_not_mem_text (o : Options) : '"' ∉ o.text := by
  intro hm
  obtain hm | hm := List.mem_append.mp hm
  · exact (o.first_free _ hm).2 rfl
  · obtain ⟨s, -, hs⟩ := List.mem_flatMap.mp hm
    obtain hgap | hoption := List.mem_cons.mp hs
    · cases hg : s.gap <;> rw [hg] at hgap <;> cases hgap
    · exact (s.free _ hoption).2 rfl

variable (file : CaseFile)

def directive : Text := framed (flattened file.gap) (flattened file.options.text)

lemma flattened_quoted (name lead gap body rest : Text) :
    flattened ((lead ++ (name ++ (gap ++ '"' :: body))) ++ '"' :: rest) =
      flattened lead ++
        ((flattened name ++ (flattened gap ++ '"' :: (flattened body ++ ['"']))) ++ flattened rest) := by
  have hquote : ∀ t, flattened ('"' :: t) = '"' :: flattened t := flattened_cons (by decide)
  simp only [flattened_append, hquote, List.append_assoc, List.cons_append, List.nil_append]

lemma flattened_text (rest : Text) : flattened (file.opening ++ '"' :: rest) =
    flattened file.lead ++ (directive file ++ flattened rest) :=
  flattened_quoted "dg-options".toList file.lead file.gap file.options.text rest

lemma opening_append (name lead gap body rest : Text) :
    (lead ++ (name ++ (gap ++ '"' :: body))) ++ '"' :: rest =
      lead ++ (name ++ (gap ++ '"' :: (body ++ '"' :: rest))) := by
  simp only [List.append_assoc, List.cons_append]

lemma CaseFile.text_eq : file.text =
    file.lead ++ ("dg-options".toList ++ (file.gap ++ '"' :: (file.options.text ++ '"' :: file.rest))) :=
  opening_append "dg-options".toList file.lead file.gap file.options.text file.rest

lemma not_opens_lead {x y t u : Text} (hlead : file.lead = x ++ y) (hy : y ≠ [])
    (htext : file.text = x ++ (t ++ u)) :
    ¬ Opens (flattened t) := by
  intro h
  apply file.first x y hlead hy
  have hrest := file.text_eq
  rw [htext, hlead, List.append_assoc] at hrest
  rw [← List.append_cancel_left hrest, flattened_append]
  exact h.append (flattened u)

lemma findall_within (h : file.opening.count '\n' < 50) :
    ∃ more, directiveRe.findall (flattened (headLines 50 file.text)) = [directive file] :: more := by
  obtain ⟨n, hn⟩ : ∃ n, 50 - file.opening.count '\n' = n + 1 := ⟨49 - file.opening.count '\n', by omega⟩
  have hhead : headLines 50 file.text = file.opening ++ '"' :: headLines n.succ file.rest := by
    rw [CaseFile.text, headLines_append h, hn]
    rfl
  obtain ⟨u, hu⟩ := headLines_isPrefix n.succ file.rest
  have htext : file.text = headLines 50 file.text ++ u := by
    rw [hhead, List.append_assoc, List.cons_append, hu]
    rfl
  have hbefore : ∀ x y, flattened file.lead = x ++ y → y ≠ [] → directiveRe.matchAt (x.reverse ++ [])
      (y ++ (directive file ++ flattened (headLines n.succ file.rest))) = none := by
    intro x y hxy hy
    obtain ⟨x, y, hlead, rfl, rfl⟩ := List.map_eq_append_iff.mp hxy
    obtain ⟨t, ht⟩ : ∃ t, headLines 50 file.text = x ++ t := by
      rw [hhead, CaseFile.opening, hlead, List.append_assoc, List.append_assoc]
      exact ⟨_, rfl⟩
    have hflat : flattened t = flattened y ++ (directive file ++ flattened (headLines n.succ file.rest)) := by
      refine List.append_cancel_left (?_ : flattened x ++ _ = flattened x ++ _)
      rw [← flattened_append, ← ht, hhead, flattened_text, hlead, flattened_append, List.append_assoc]
    have hwhole : file.text = x ++ (t ++ u) := by
      rw [← List.append_assoc, ← ht]
      exact htext
    have hnot := not_opens_lead file hlead (by simpa using hy) hwhole
    by_contra hmatch
    obtain ⟨found, hfound⟩ := Option.ne_none_iff_exists'.mp hmatch
    exact hnot (hflat ▸ opens_of_match hfound)
  have hfound := directive_found (isPosixSpace_flattened file.gap_space)
    (fun hm => quote_not_mem_text file.options (mem_flattened (by decide) hm))
      ((flattened file.lead).reverse ++ []) (flattened (headLines n.succ file.rest))
  rw [hhead, flattened_text, Re.findall, scan_none _ _ _ hbefore]
  refine ⟨_, scan_some ?_ hfound⟩
  exact List.cons_ne_nil _ _

lemma count_opening (name gap body : Text) (hname : '"' ∉ name) (hgap : '"' ∉ gap) (hbody : '"' ∉ body) :
    (name ++ (gap ++ '"' :: body)).count '"' = 1 := by
  rw [List.count_append, List.count_append, List.count_cons_self, List.count_eq_zero.mpr hname,
    List.count_eq_zero.mpr hgap, List.count_eq_zero.mpr hbody]

lemma findall_beyond (h : 50 ≤ file.opening.count '\n') :
    directiveRe.findall (flattened (headLines 50 file.text)) = [] := by
  apply List.eq_nil_iff_forall_not_mem.mpr
  intro gs hgs
  obtain ⟨_, _, rest, huv, hmatch⟩ := mem_findall hgs
  obtain ⟨u, v, hhead, rfl, rfl⟩ := List.map_eq_append_iff.mp huv
  have hopens : Opens (flattened v) := opens_of_match hmatch
  obtain ⟨z, hz⟩ := headLines_short h ('"' :: file.rest)
  have hopening : u ++ (v ++ z) = file.lead ++
    ("dg-options".toList ++ (file.gap ++ '"' :: file.options.text)) := by
    rw [← List.append_assoc, ← hhead]
    exact hz
  have hgap : '"' ∉ file.gap := fun hm => by cases file.gap_space _ hm
  have hcount := count_opening "dg-options".toList file.gap file.options.text (by decide) hgap
    (quote_not_mem_text file.options)
  have htwo := count_quote_of_opens hopens
  rw [count_flattened] at htwo
  obtain ⟨y, hlead, hrest⟩ | ⟨y, -, hrest⟩ := List.append_eq_append_iff.mp hopening
  · by_cases hy : y = []
    · rw [hy, List.nil_append] at hrest
      rw [← hrest, List.count_append] at hcount
      omega
    · have htext : file.text = u ++ (v ++ (z ++ '"' :: file.rest)) := by
        rw [CaseFile.text, CaseFile.opening, ← hopening, List.append_assoc, List.append_assoc]
      exact not_opens_lead file hlead hy htext hopens
  · rw [hrest, List.count_append, List.count_append] at hcount
    omega

lemma unquoted_quoted {name gap : Text} (hname : name.length = 10) (hgap : ∀ c ∈ gap, isPosixSpace c = true)
    (body : Text) : unquoted (name ++ (gap ++ '"' :: (body ++ ['"']))) = body := by
  obtain ⟨-, hdrop⟩ := takeWhile_word (a := '"' :: (body ++ ['"'])) hgap (by rintro c t ⟨⟩; rfl)
  rw [unquoted, List.drop_left' hname, hdrop, List.drop_one, List.tail_cons, List.dropLast_concat]

lemma unquoted_directive : unquoted (directive file) = flattened file.options.text :=
  unquoted_quoted (rfl : "dg-options".toList.length = 10) (isPosixSpace_flattened file.gap_space)
    (flattened file.options.text)

lemma extract_within (loc : Locale) (h : file.opening.count '\n' < 50) :
    extractDgOptions loc file.text = strippedFlags loc (flattened file.options.text) := by
  obtain ⟨more, hmore⟩ := findall_within file h
  rw [extractDgOptions, hmore]
  show strippedFlags loc (unquoted [directive file].flatten) = _
  rw [List.flatten_singleton, unquoted_directive]

lemma extract_beyond (loc : Locale) (h : 50 ≤ file.opening.count '\n') :
    extractDgOptions loc file.text = [] := by
  rw [extractDgOptions, findall_beyond file h]
  rfl

end ShMonitor.Lra.DgOptions

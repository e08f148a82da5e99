import ShMonitor.Detection.ExtractShSimFailures

/-! What `extract-sh-sim-failures.py` reads from a sum, line by line. A FAIL line with nothing behind its
path takes the next line that is not blank for its detail. -/

namespace ShMonitor.Detection.Readings

open ShMonitor.Texts ShMonitor.Texts.Regex
open ExtractFailures (Entry failTag toEntry ends_dropWhile)
open ExtractShSimFailures

structure FailHead where
  path : Text
  rest : Text
  path_ne : path ≠ []
  path_word : ∀ c ∈ path, nonSpace c = true
  rest_head : ∀ c t, rest = c :: t → nonSpace c = false

def FailHead.text (head : FailHead) : Text := head.path ++ head.rest

def failStart : Text := failTag ++ [' ']

def failHead (l : Text) : Option FailHead :=
  let r := l.drop failStart.length
  if h : failStart <+: l ∧ r.takeWhile nonSpace ≠ [] then
    some ⟨r.takeWhile nonSpace, r.dropWhile nonSpace, h.2, fun _ hc => List.mem_takeWhile_imp hc,
      fun _ _ hc => dropWhile_head r hc⟩
  else none

def isBlank (l : Text) : Bool := l.all isSpace

inductive Reading where
  | own (head : FailHead)
  | borrowed (head : FailHead) (line : Text)

def Reading.entry : Reading → Entry
  | .own head => ⟨head.path, strip head.rest⟩
  | .borrowed head line => ⟨head.path, strip line⟩

/-- The first argument is a FAIL line that still has to find its detail. -/
def readings : Option FailHead → List Text → List Reading
  | none, [] => []
  | some head, [] => [.borrowed head []]
  | some head, l :: ls => if isBlank l then readings (some head) ls else .borrowed head l :: readings none ls
  | none, l :: ls =>
    match failHead l with
    | none => readings none ls
    | some head => if isBlank head.rest then readings (some head) ls else .own head :: readings none ls

lemma isBlank_iff {l : Text} : isBlank l = true ↔ ∀ c ∈ l, isSpace c = true := List.all_eq_true

lemma failHead_some {l : Text} {head : FailHead} (h : failHead l = some head) : l = failStart ++ head.text := by
  rw [failHead] at h
  split at h
  · rename_i hl
    obtain ⟨r, rfl⟩ := hl.1
    obtain rfl := Option.some.inj h
    simp [FailHead.text]
  · cases h

lemma failHead_none {l : Text} (h : failHead l = none) (hstart : failStart <+: l) :
    (l.drop failStart.length).takeWhile nonSpace = [] := by
  by_contra hne
  rw [failHead, dif_pos ⟨hstart, hne⟩] at h
  cases h

lemma passes_of_failHead_none {l : Text} (h : failHead l = none) : PassesLine failLineRe l := by
  intro b tail ht
  by_contra hne
  obtain ⟨f, hf⟩ := Option.ne_none_iff_exists'.mp hne
  obtain ⟨-, path, t, ha, hpath, hword, -⟩ := matchAt_failLineRe hf
  have ha' : l ++ tail = failStart ++ (path ++ t) := by rw [ha, failStart, List.append_assoc]; rfl
  have hstart : failStart <+: l := prefix_of_ends (by decide) ht (ha' ▸ List.prefix_append _ _)
  have hnone := failHead_none h hstart
  obtain ⟨r, rfl⟩ := hstart
  rw [List.append_assoc] at ha'
  have hr := List.append_cancel_left ha'
  rw [List.drop_left] at hnone
  cases path with
  | nil => exact hpath rfl
  | cons c path =>
    have hc := hword c List.mem_cons_self
    cases r with
    | nil =>
      obtain rfl | ⟨u, rfl⟩ := ht
      · cases hr
      · obtain ⟨rfl, -⟩ := List.cons.inj hr
        exact absurd hc (by decide)
    | cons d r =>
      obtain ⟨rfl, -⟩ := List.cons.inj hr
      simp [hc] at hnone

lemma dropWhile_of_not_blank {l : Text} (h : isBlank l = false) (t : Text) :
    (l ++ t).dropWhile isSpace = l.dropWhile isSpace ++ t := by
  rw [List.dropWhile_append, if_neg]
  rw [List.isEmpty_iff, List.dropWhile_eq_nil_iff, ← isBlank_iff, h]
  exact Bool.false_ne_true

lemma takeWhile_line {l tail : Text} (hl : '\n' ∉ l) (ht : Ends tail) :
    (l ++ tail).takeWhile notNewline = l ∧ (l ++ tail).dropWhile notNewline = tail := by
  apply takeWhile_word
  · intro c hc
    exact notNewline_iff.mpr (fun h => hl (h ▸ hc))
  · rintro c t rfl
    obtain h | ⟨u, h⟩ := ht
    · cases h
    · obtain ⟨rfl, -⟩ := List.cons.inj h
      rfl

lemma newline_not_mem_dropWhile {l : Text} (hl : '\n' ∉ l) : '\n' ∉ l.dropWhile isSpace :=
  fun hm => hl ((List.dropWhile_suffix isSpace).mem hm)

lemma matchAt_head (head : FailHead) {b : Text} (hb : Cursor.atLineStart ⟨b, []⟩ = true) (tail : Text)
    (ht : Ends tail) : ∃ ws rest, ((head.rest ++ tail).dropWhile isSpace).dropWhile notNewline = ws ++ rest ∧
      (∀ c ∈ ws, isSpace c = true) ∧ failLineRe.matchAt b (failStart ++ head.text ++ tail) =
        some ([head.path, rstrip (((head.rest ++ tail).dropWhile isSpace).takeWhile notNewline)], rest) := by
  have hrest : ∀ c u, head.rest ++ tail = c :: u → nonSpace c = false := by
    intro c u hc
    cases hr : head.rest with
    | nil =>
      rw [hr, List.nil_append] at hc
      obtain rfl | ⟨v, rfl⟩ := ht
      · cases hc
      · obtain ⟨rfl, -⟩ := List.cons.inj hc
        rfl
    | cons d v =>
      rw [hr] at hc
      obtain ⟨rfl, -⟩ := List.cons.inj hc
      exact head.rest_head d v hr
  have htext : failStart ++ head.text ++ tail = failTag ++ ' ' :: (head.path ++ (head.rest ++ tail)) := by
    simp [failStart, FailHead.text]
  rw [htext]
  exact matchAt_failLineRe_some hb head.path_ne head.path_word hrest

lemma readsLine_own {head : FailHead} (h : isBlank head.rest = false) (hl : '\n' ∉ head.rest) :
    ReadsLine failLineRe (failStart ++ head.text) [head.path, strip head.rest] := by
  intro b tail hb ht
  obtain ⟨ws, rest, hws, hsp, hm⟩ := matchAt_head head (b := b) hb tail ht
  obtain ⟨h1, h2⟩ := takeWhile_line (newline_not_mem_dropWhile hl) ht
  rw [dropWhile_of_not_blank h] at hws hm
  rw [h2] at hws
  rw [h1] at hm
  exact ⟨ws, rest, hws, hsp, hm⟩

def laterLines : Text → List Text
  | [] => []
  | _ :: t => lines t

lemma lines_append {l tail : Text} (hl : '\n' ∉ l) (ht : Ends tail) :
    lines (l ++ tail) = l :: laterLines tail := by
  obtain rfl | ⟨t, rfl⟩ := ht
  · rw [List.append_nil]
    exact lines_single hl
  · exact lines_cons hl t

lemma exists_line (t : Text) : ∃ l tail, t = l ++ tail ∧ '\n' ∉ l ∧ Ends tail := by
  refine ⟨t.takeWhile notNewline, t.dropWhile notNewline, (List.takeWhile_append_dropWhile).symm, ?_,
    ends_dropWhile t⟩
  intro hm
  simpa [notNewline] using List.mem_takeWhile_imp hm

lemma readings_borrowed (head : FailHead) (t : Text) :
    ∃ l, strip l = rstrip ((t.dropWhile isSpace).takeWhile notNewline) ∧ readings (some head) (lines t) =
      .borrowed head l :: readings none (laterLines ((t.dropWhile isSpace).dropWhile notNewline)) := by
  have hfull {l tail : Text} (hl : '\n' ∉ l) (ht : Ends tail) (hb : isBlank l = false) :
      strip l = rstrip (((l ++ tail).dropWhile isSpace).takeWhile notNewline) ∧
        readings (some head) (lines (l ++ tail)) = .borrowed head l ::
          readings none (laterLines (((l ++ tail).dropWhile isSpace).dropWhile notNewline)) := by
    obtain ⟨h1, h2⟩ := takeWhile_line (newline_not_mem_dropWhile hl) ht
    rw [dropWhile_of_not_blank hb, h1, h2, strip, lines_append hl ht, readings, hb]
    exact ⟨rfl, rfl⟩
  induction t using line_induction with
  | last l hl =>
    by_cases hb : isBlank l = true
    · rw [lines_single hl, List.dropWhile_eq_nil_iff.mpr (isBlank_iff.mp hb), readings, if_pos hb]
      exact ⟨[], rfl, rfl⟩
    · have h := hfull hl (.inl rfl) (Bool.not_eq_true _ ▸ hb)
      rw [List.append_nil] at h
      exact ⟨l, h⟩
  | line l t hl ih =>
    by_cases hb : isBlank l = true
    · have hskip : (l ++ '\n' :: t).dropWhile isSpace = t.dropWhile isSpace := by
        rw [List.dropWhile_append_of_pos (isBlank_iff.mp hb)]
        rfl
      rwa [hskip, lines_cons hl, readings, if_pos hb]
    · exact ⟨l, hfull hl (.inr ⟨t, rfl⟩) (Bool.not_eq_true _ ▸ hb)⟩

lemma readings_pending (head : FailHead) {tail : Text} (ht : Ends tail) :
    ∃ l, strip l = rstrip ((tail.dropWhile isSpace).takeWhile notNewline) ∧
      readings (some head) (laterLines tail) =
        .borrowed head l :: readings none (laterLines ((tail.dropWhile isSpace).dropWhile notNewline)) := by
  obtain rfl | ⟨t, rfl⟩ := ht
  · exact ⟨[], rfl, rfl⟩
  · exact readings_borrowed head t

lemma filterMap_toEntry (path detail : Text) (gss : List (List Text)) :
    ([path, detail] :: gss).filterMap toEntry = ⟨path, detail⟩ :: gss.filterMap toEntry := rfl

lemma scan_readings (t : Text) {b : Text} (hb : Cursor.atLineStart ⟨b, []⟩ = true) :
    (failLineRe.scan 0 b t).filterMap toEntry = (readings none (lines t)).map Reading.entry := by
  induction t using (measure List.length).wf.induction generalizing b with
  | h t ih =>
    have later {tail : Text} (ht : Ends tail) (hlen : tail.length ≤ t.length) (b : Text) :
        (failLineRe.scan 0 b tail).filterMap toEntry = (readings none (laterLines tail)).map Reading.entry := by
      obtain rfl | ⟨u, rfl⟩ := ht
      · rw [Re.scan, anchored_failLineRe.stop]
        rfl
      · have hblank := scan_blank anchored_failLineRe ['\n'] b u (by simp)
        rw [List.singleton_append] at hblank
        rw [hblank]
        exact ih u hlen rfl
    obtain ⟨l, tail, rfl, hl, ht⟩ := exists_line t
    have htail : tail.length ≤ (l ++ tail).length := by
      rw [List.length_append]
      exact Nat.le_add_left _ _
    rw [lines_append hl ht, readings]
    cases hh : failHead l with
    | none =>
      rw [scan_passes anchored_failLineRe hl (passes_of_failHead_none hh) ht]
      exact later ht htail _
    | some head =>
      obtain rfl := failHead_some hh
      have hrest : '\n' ∉ head.rest := by
        intro hm
        exact hl (by simp [FailHead.text, hm])
      dsimp only
      split
      · rename_i hblank
        obtain ⟨line, hline, hreadings⟩ := readings_pending head ht
        obtain ⟨ws, rest, hws, hsp, hm⟩ := matchAt_head head hb tail ht
        rw [List.dropWhile_append_of_pos (isBlank_iff.mp hblank)] at hws hm
        obtain ⟨y, hy⟩ : ((tail.dropWhile isSpace).dropWhile notNewline) <:+ tail :=
          (List.dropWhile_suffix notNewline).trans (List.dropWhile_suffix isSpace)
        have hends := ends_dropWhile (tail.dropWhile isSpace)
        have hlen : ((tail.dropWhile isSpace).dropWhile notNewline).length ≤ tail.length :=
          List.IsSuffix.length_le ⟨y, hy⟩
        have htext : failStart ++ head.text ++ tail = (failStart ++ head.text ++ y ++ ws) ++ rest := by
          rw [← hy, hws]
          simp
        rw [htext] at hm
        have hscan := scan_some (by simp [head.path_ne, FailHead.text]) hm
        -- The match also takes blanks behind the line, which no other match begins in.
        have hskip := scan_blank anchored_failLineRe ws ((failStart ++ head.text ++ y).reverse ++ b) rest hsp
        rw [← List.append_assoc, ← List.reverse_append, ← hws] at hskip
        rw [htext, hscan, ← hskip, hreadings, filterMap_toEntry, later hends (hlen.trans htail), ← hline]
        rfl
      · rename_i hblank
        have hown := scan_reads (l := failStart ++ head.text) anchored_failLineRe
          (by simp [head.path_ne, FailHead.text]) hb (readsLine_own (Bool.not_eq_true _ ▸ hblank) hrest) ht
        rw [hown, filterMap_toEntry, later ht htail]
        rfl

lemma fileMatches_eq_readings (sum : Text) :
    fileMatches sum = (readings none (lines (readText sum))).map Reading.entry :=
  scan_readings _ rfl

end ShMonitor.Detection.Readings

import ShMonitor.Lists
import ShMonitor.Runs
import ShMonitor.Shell.Strict
import ShMonitor.Texts.Table

/-! `sync-check.sh` and the workflow `sync.yml` that runs it: the state file names the upstream
commit under test, and a job that finds another one at the head pushes a new version of it. Jobs run
one at a time, but others push to the branch while one does. -/

namespace ShMonitor.Workflow.Sync

open Texts Shell Runs

variable {α : Type}

/-- What jq reads from a file: its values, or `none` where it stops with an error. -/
abbrev File (α : Type) := Option (List (Json α))

/-- What `git ls-remote` prints in its first column. -/
abbrev Sha := {t : Text // t ≠ [] ∧ ∀ c ∈ t, c.isAlphanum = true}

def commitField : Text := "commit".toList

def detectedField : Text := "detected_at".toList

def statusField : Text := "status".toList

def pending : Text := "pending".toList

def setField (name : Text) (value : Json α) : Json α → Option (Json α)
  | .obj fields => some (.obj (Table.putRow name value fields))
  | .null => some (.obj [(name, value)])
  | _ => none

def pend (sha now : Text) (j : Json α) : Option (Json α) :=
  (setField commitField (.str sha) j).bind fun j =>
    (setField detectedField (.str now) j).bind (setField statusField (.str pending))

def captured (printed : List Text) : Text := (unlines printed).rdropWhile (· == '\n')

def readCommit (tools : Tools α) (file : File α) : Option Text :=
  (file.bind (List.mapM (Json.field commitField))).map fun found => captured (found.map tools.raw)

structure Workspace (α : Type) where
  file : File α
  tmp : Option (File α)
  upstreamSha : Text
  currentSha : Text
  output : List Text

inductive Command where
  | lsRemote
  | readCommit
  | echo (line : Text)
  | rewrite
  | mv

/-- What happens in one run of the script; `remote` is `none` when git fails, `torn` what a `jq` leaves
behind that fails or is killed while it writes. -/
structure Tick (α : Type) where
  remote : Option (List Sha)
  now : Text
  rewritten : Bool
  torn : File α
  moved : Bool
  kill : Option ℕ

def Tick.Quiet (tick : Tick α) : Prop := tick.rewritten = true ∧ tick.moved = true ∧ tick.kill = none

def runCommand (tools : Tools α) (tick : Tick α) : Command → Workspace α → Bool × Workspace α
  | .lsRemote, s =>
    match tick.remote with
    | none => (false, s)
    | some shas => (true, { s with upstreamSha := captured (shas.map Subtype.val) })
  | .readCommit, s =>
    match readCommit tools s.file with
    | none => (false, s)
    | some sha => (true, { s with currentSha := sha })
  | .echo line, s => (true, { s with output := s.output ++ lines line })
  | .rewrite, s =>
    match tick.rewritten, s.file.bind (List.mapM (pend s.upstreamSha tick.now)) with
    | true, some values => (true, { s with tmp := some (some values) })
    | _, _ => (false, { s with tmp := some tick.torn })
  | .mv, s =>
    match tick.moved, s.tmp with
    | true, some file => (true, { s with file := file, tmp := none })
    | _, _ => (false, s)

def tornCommand (tools : Tools α) (tick : Tick α) : Command → Workspace α → Workspace α
  | .rewrite, s => { s with tmp := some tick.torn }
  -- A rename is atomic.
  | .mv, s => (runCommand tools tick .mv s).2
  | .lsRemote, s | .readCommit, s | .echo _, s => s

def host (tools : Tools α) (tick : Tick α) : Host (Workspace α) Command :=
  ⟨runCommand tools tick, tornCommand tools tick⟩

def changedName : Text := "changed".toList

def trueWord : Text := "true".toList

def falseWord : Text := "false".toList

def assign (name value : Text) : Text := name ++ '=' :: value

def commitLine (sha : Text) : Text := assign commitField sha

def advance : Script (Workspace α) Command Bool :=
  .strict [.rewrite, .mv, .echo (assign changedName trueWord)] false (.ret true)

def compare : Script (Workspace α) Command Bool :=
  .test fun s =>
    .strict [.echo (commitLine s.upstreamSha)] false
      (if s.upstreamSha = s.currentSha then
        .strict [.echo (assign changedName falseWord)] false (.ret true)
      else advance)

def syncCheck : Script (Workspace α) Command Bool :=
  .strict [.lsRemote] false
    (.test fun s => if s.upstreamSha = [] then .ret false else .strict [.readCommit] false compare)

def checkedOut (file : File α) : Workspace α := ⟨file, none, [], [], []⟩

def check (tools : Tools α) (tick : Tick α) (file : File α) : Workspace α :=
  (syncCheck.exec (host tools tick) tick.kill (checkedOut file)).2

def setting (line : Text) : Option (Text × Text) :=
  if '=' ∈ line then some (line.takeWhile (· != '='), (line.dropWhile (· != '=')).drop 1) else none

def settings (output : List Text) : Option (List (Text × Text)) := (output.filter (· ≠ [])).mapM setting

def lastOf (name : Text) (found : List (Text × Text)) : Text := (found.reverse.lookup name).getD []

/-- The commit to push, where the step leaves `changed == 'true'`. The step's status is that of `tee`. -/
def toPush (output : List Text) : Option Text :=
  (settings output).bind fun found =>
    if lastOf changedName found = trueWord then some (lastOf commitField found) else none

structure Version (α : Type) where
  file : File α
  pushed : Option Text

inductive Job (α : Type) where
  | started (base : ℕ) (file : File α)
  | changed (base : ℕ) (file : File α) (sha : Text)

structure Branch (α : Type) where
  versions : List (Version α)
  job : Option (Job α)

inductive Event (α : Type) where
  | edit (file : File α)
  | start
  | check (tick : Tick α)
  | push (accepted : Bool)
  | cancel

def next (tools : Tools α) (b : Branch α) : Event α → Branch α
  | .edit file => { b with versions := ⟨file, none⟩ :: b.versions }
  | .start =>
    match b.job, b.versions with
    | none, version :: _ => { b with job := some (.started b.versions.length version.file) }
    | _, _ => b
  | .check tick =>
    match b.job with
    | some (.started base file) =>
      let w := Sync.check tools tick file
      { b with job := (toPush w.output).map (.changed base w.file) }
    | _ => b
  | .push accepted =>
    match b.job with
    | some (.changed base file sha) =>
      if accepted = true ∧ base = b.versions.length then ⟨⟨file, some sha⟩ :: b.versions, none⟩
      else { b with job := none }
    | _ => b
  | .cancel => { b with job := none }

lemma lookup_cons_ite (name : Text) (row : Text × Json α) (rows : List (Text × Json α)) :
    (row :: rows).lookup name = if name = row.1 then some row.2 else rows.lookup name := by
  rw [List.lookup_cons]
  by_cases h : name = row.1
  · rw [if_pos h, h, beq_self_eq_true]
  · rw [if_neg h, beq_false_of_ne h]

lemma lookup_putRow (k name : Text) (v : Json α) (rows : List (Text × Json α)) :
    (Table.putRow k v rows).lookup name = if name = k then some v else rows.lookup name := by
  induction rows with
  | nil => exact lookup_cons_ite name (k, v) []
  | cons row rows ih =>
    rw [Table.putRow]
    by_cases hrow : row.1 = k
    · rw [if_pos hrow, lookup_cons_ite, lookup_cons_ite, hrow]
      split_ifs <;> rfl
    · rw [if_neg hrow, lookup_cons_ite, lookup_cons_ite, ih]
      by_cases h : name = row.1
      · rw [if_pos h, if_neg (h ▸ hrow), if_pos h]
      · rw [if_neg h, if_neg h]

lemma field_setField {name : Text} {value j j' : Json α} (h : setField name value j = some j') (name' : Text) :
    j'.field name' = if name' = name then some value else j.field name' := by
  cases j with
  | null =>
    obtain rfl := Option.some.inj h
    rw [Json.field, lookup_cons_ite, Json.field]
    split_ifs <;> rfl
  | obj fields =>
    obtain rfl := Option.some.inj h
    rw [Json.field, lookup_putRow, Json.field]
    split_ifs <;> rfl
  | bool b | num a | str t | arr elements => cases h

lemma field_pend {sha now : Text} {j j' : Json α} (h : pend sha now j = some j') {name : Text}
    (hd : name ≠ detectedField) (hs : name ≠ statusField) :
    j'.field name = if name = commitField then some (.str sha) else j.field name := by
  obtain ⟨j₁, h₁, h⟩ := Option.bind_eq_some_iff.mp h
  obtain ⟨j₂, h₂, h₃⟩ := Option.bind_eq_some_iff.mp h
  rw [field_setField h₃, if_neg hs, field_setField h₂, if_neg hd, field_setField h₁]

lemma pend_obj (sha now : Text) (fields : List (Text × Json α)) :
    ∃ fields', pend sha now (.obj fields) = some (.obj fields') :=
  ⟨_, rfl⟩

def fieldsOf (name : Text) (file : File α) : Option (List (Json α)) := file.bind (List.mapM (Json.field name))

structure Advanced (tools : Tools α) (old : File α) (sha : Text) (new : File α) : Prop where
  differs : readCommit tools old ≠ some sha
  pended : ∃ now values changed, old = some values ∧ values.mapM (pend sha now) = some changed ∧
    new = some changed

lemma mapM_pend {sha now : Text} {values changed : List (Json α)}
    (h : values.mapM (pend sha now) = some changed)
    {name : Text} (hc : name ≠ commitField) (hd : name ≠ detectedField) (hs : name ≠ statusField) :
    changed.mapM (Json.field name) = values.mapM (Json.field name) := by
  induction values generalizing changed with
  | nil =>
    obtain rfl := Option.some.inj h
    rfl
  | cons j values ih =>
    obtain ⟨j', hj, changed, hchanged, rfl⟩ := Lists.mapM_cons_eq_some.mp h
    rw [List.mapM_cons, List.mapM_cons, ih hchanged, field_pend hj hd hs, if_neg hc]

section

variable {tools : Tools α} {old new : File α} {sha : Text}

lemma Advanced.fieldsOf (h : Advanced tools old sha new) {name : Text} (hc : name ≠ commitField)
    (hd : name ≠ detectedField) (hs : name ≠ statusField) : fieldsOf name new = fieldsOf name old := by
  obtain ⟨now, values, changed, rfl, hpend, rfl⟩ := h.pended
  exact mapM_pend hpend hc hd hs

lemma captured_single {t : Text} (ht : t.getLast? ≠ some '\n') : captured [t] = t := by
  rw [captured, unlines, List.map_singleton, List.flatten_singleton, List.rdropWhile_concat_pos _ _ _ rfl,
    List.rdropWhile_eq_self_iff]
  intro hne
  simpa [List.getLast?_eq_getLast_of_ne_nil hne] using ht

lemma readCommit_pended {now : Text} {j j' : Json α} (h : pend sha now j = some j')
    (hsha : sha.getLast? ≠ some '\n') :
    readCommit tools (some [j']) = some sha := by
  have hfield : j'.field commitField = some (.str sha) := by
    rw [field_pend h (by decide) (by decide), if_pos rfl]
  rw [readCommit, Option.bind_some, List.mapM_cons, hfield]
  exact congrArg some (captured_single hsha)

lemma Advanced.readCommit {j : Json α} (h : Advanced tools (some [j]) sha new)
    (hsha : sha.getLast? ≠ some '\n') :
    readCommit tools new = some sha := by
  obtain ⟨now, values, changed, hold, hpend, rfl⟩ := h.pended
  obtain rfl := Option.some.inj hold
  obtain ⟨j', hj, changed, hchanged, rfl⟩ := Lists.mapM_cons_eq_some.mp hpend
  obtain rfl := Option.some.inj hchanged
  exact readCommit_pended hj hsha

end

lemma Sha.last (sha : Sha) : sha.1.getLast? ≠ some '\n' := by
  intro h
  exact absurd (sha.2.2 _ (List.mem_of_getLast? h)) (by decide)

lemma Sha.not_mem (sha : Sha) {c : Char} (hc : c.isAlphanum = false) : c ∉ sha.1 := fun h => by
  rw [sha.2.2 c h] at hc
  cases hc

lemma captured_concat (shas : List Text) {sha : Text} (hne : sha ≠ []) (hlast : sha.getLast? ≠ some '\n') :
    captured (shas ++ [sha]) = unlines shas ++ sha := by
  have happ : unlines (shas ++ [sha]) = (unlines shas ++ sha) ++ ['\n'] := by simp [unlines]
  rw [captured, happ, List.rdropWhile_concat_pos _ _ _ rfl, List.rdropWhile_eq_self_iff]
  intro hnil
  rw [List.getLast_append_of_right_ne_nil _ _ hne]
  simpa [List.getLast?_eq_getLast_of_ne_nil hne] using hlast

lemma lines_append_unlines {first last : Text} {shas : List Text} (hfirst : '\n' ∉ first) (hlast : '\n' ∉ last)
    (hshas : ∀ sha ∈ shas, '\n' ∉ sha) :
    lines (first ++ (unlines shas ++ last)) =
      (first ++ (shas ++ [last]).head (by simp)) :: (shas ++ [last]).tail := by
  induction shas generalizing first with
  | nil =>
    have happ : '\n' ∉ first ++ last := List.mem_append.not.mpr (not_or.mpr ⟨hfirst, hlast⟩)
    exact lines_single happ
  | cons sha shas ih =>
    have hsplit : first ++ (unlines (sha :: shas) ++ last) = (first ++ sha) ++
      '\n' :: (unlines shas ++ last) := by
      simp [unlines]
    have hrest := ih List.not_mem_nil (fun s hs => hshas s (List.mem_cons_of_mem _ hs))
    rw [hsplit, lines_cons (by simp [hfirst, hshas sha List.mem_cons_self])]
    cases shas with
    | nil => simpa using hrest
    | cons sha' shas => simpa using hrest

lemma setting_assign {name : Text} (h : '=' ∉ name) (value : Text) :
    setting (assign name value) = some (name, value) := by
  have hword := takeWhile_word (p := (· != '=')) (w := name) (a := '=' :: value)
    (fun c hc => by simpa using fun heq : c = '=' => h (heq ▸ hc))
      (fun c t heq => by simp [← (List.cons.inj heq).1])
  rw [setting, assign, if_pos (List.mem_append_right _ List.mem_cons_self), hword.1, hword.2]
  rfl

lemma lines_commitLine (sha : Sha) (shas : List Sha) :
    lines (commitLine (captured ((sha :: shas).map Subtype.val))) =
      commitLine sha.1 :: shas.map Subtype.val := by
  obtain ⟨init, last, hconcat⟩ : ∃ init last, (sha :: shas) = init ++ [last] :=
    ⟨_, _, (List.dropLast_append_getLast (List.cons_ne_nil sha shas)).symm⟩
  have hplain (s : Sha) : '\n' ∉ s.1 := s.not_mem rfl
  have hinit : ∀ s ∈ init.map Subtype.val, '\n' ∉ s := List.forall_mem_map.mpr (fun s _ => hplain s)
  have hmap : (sha :: shas).map Subtype.val = init.map Subtype.val ++ [last.1] := by
    rw [hconcat, List.map_append]
    rfl
  have hname : '\n' ∉ commitField ++ ['='] := by decide
  have hlines := lines_append_unlines hname (hplain last) hinit
  have hsplit (t : Text) : commitLine t = (commitField ++ ['=']) ++ t := List.append_cons commitField '=' t
  rw [hmap, captured_concat _ last.2.1 last.last, hsplit, hsplit, hlines]
  simp only [← hmap, List.map_cons, List.head_cons, List.tail_cons]

lemma captured_eq_nil {shas : List Sha} : captured (shas.map Subtype.val) = [] ↔ shas = [] := by
  constructor
  · intro h
    cases shas with
    | nil => rfl
    | cons sha shas =>
      have hlines := lines_commitLine sha shas
      rw [h, commitLine, assign, lines_single (by decide)] at hlines
      have hhead := (List.cons.inj hlines).1
      exact absurd (List.cons.inj (List.append_cancel_left hhead)).2.symm sha.2.1
  · rintro rfl
    rfl

lemma assign_ne_nil (name value : Text) : assign name value ≠ [] :=
  List.append_ne_nil_of_right_ne_nil _ (List.cons_ne_nil _ _)

lemma settings_cons {name : Text} (h : '=' ∉ name) (value : Text) (output : List Text) :
    settings (assign name value :: output) = (settings output).map ((name, value) :: ·) := by
  rw [settings, List.filter_cons_of_pos (by simpa using assign_ne_nil name value), List.mapM_cons,
    setting_assign h, settings]
  cases (output.filter (· ≠ [])).mapM setting <;> rfl

lemma commitField_plain : '=' ∉ commitField := by decide

lemma changedName_plain : '=' ∉ changedName := by decide

lemma settings_sha {output : List Text} {sha : Sha} (h : sha.1 ∈ output) : settings output = none := by
  have hmem : sha.1 ∈ output.filter (· ≠ []) := List.mem_filter.mpr ⟨h, by simpa using sha.2.1⟩
  exact Lists.mapM_eq_none hmem (if_neg (sha.not_mem rfl))

inductive Verdict where
  | none
  | same
  | moved
  deriving DecidableEq

def Verdict.lines : Verdict → List Text
  | .none => []
  | .same => [assign changedName falseWord]
  | .moved => [assign changedName trueWord]

lemma toPush_single (sha : Text) (v : Verdict) :
    toPush (commitLine sha :: v.lines) = if v = .moved then some sha else none := by
  have hnil : settings [] = some [] := rfl
  rw [toPush, commitLine, settings_cons commitField_plain]
  cases v with
  | none =>
    rw [Verdict.lines, hnil]
    rfl
  | same =>
    rw [Verdict.lines, settings_cons changedName_plain, hnil]
    rfl
  | moved =>
    rw [Verdict.lines, settings_cons changedName_plain, hnil]
    rfl

lemma toPush_commits {shas : List Sha} (hne : shas ≠ []) {v : Verdict} {t : Text}
    (h : toPush (lines (commitLine (captured (shas.map Subtype.val))) ++ v.lines) = some t) :
    v = .moved ∧ ∃ sha : Sha, shas = [sha] ∧ t = sha.1 := by
  cases shas with
  | nil => exact absurd rfl hne
  | cons sha shas =>
    rw [lines_commitLine] at h
    cases shas with
    | nil =>
      rw [List.map_nil, List.singleton_append, toPush_single] at h
      split_ifs at h with hv
      exact ⟨hv, sha, rfl, (Option.some.inj h).symm⟩
    | cons sha' shas =>
      rw [toPush, @settings_sha _ sha' (by simp)] at h
      cases h

def upstream (tick : Tick α) : Text := captured ((tick.remote.getD []).map Subtype.val)

structure Reported (tools : Tools α) (tick : Tick α) (file : File α) (s : Workspace α) : Prop where
  whole : s.file = file ∨ Advanced tools file (upstream tick) s.file
  told : s.output = [] ∨ upstream tick ≠ [] ∧ ∃ v : Verdict,
    s.output = lines (commitLine (upstream tick)) ++ v.lines ∧
      (v = .moved → Advanced tools file (upstream tick) s.file)

section

variable {tools : Tools α} {tick : Tick α} {file : File α} {s : Workspace α}

structure Asked (tools : Tools α) (tick : Tick α) (file : File α) (s : Workspace α) : Prop where
  file : s.file = file
  upstream : s.upstreamSha = upstream tick
  found : Sync.upstream tick ≠ []

lemma Asked.reported (h : Asked tools tick file s) {v : Verdict} (hv : v ≠ .moved)
    (hout : s.output = lines (commitLine (Sync.upstream tick)) ++ v.lines) : Reported tools tick file s :=
  ⟨Or.inl h.file, Or.inr ⟨h.found, v, hout, fun hm => absurd hm hv⟩⟩

lemma run_mv (s : Workspace α) (new : File α) :
    (host tools tick).run .mv { s with tmp := some new } =
      if tick.moved then (true, { s with file := new, tmp := none })
      else (false, { s with tmp := some new }) := by
  show runCommand tools tick .mv { s with tmp := some new } = _
  rw [runCommand]
  cases tick.moved <;> rfl

lemma run_rewrite (s : Workspace α) :
    (host tools tick).run .rewrite s =
      ((s.file.bind (List.mapM (pend s.upstreamSha tick.now))).filter (fun _ => tick.rewritten)).elim
        (false, { s with tmp := some tick.torn })
        (fun changed => (true, { s with tmp := some (some changed) })) := by
  show runCommand tools tick .rewrite s = _
  rw [runCommand]
  cases tick.rewritten <;> cases s.file.bind (List.mapM (pend s.upstreamSha tick.now)) <;> rfl

lemma mv_meets (h : Asked tools tick file s)
    (hout : s.output = lines (commitLine (upstream tick)) ++ Verdict.none.lines)
    {new : File α} (hnew : Advanced tools file (upstream tick) new) :
    (Script.strict [.mv, .echo (assign changedName trueWord)] false (.ret true)).Meets (host tools tick)
      (fun _ => Reported tools tick file) (Reported tools tick file) { s with tmp := some new } := by
  have hmoved {output : List Text} {v : Verdict} (hv : output = lines (commitLine (upstream tick)) ++ v.lines) :
      Reported tools tick file { s with file := new, tmp := none, output := output } :=
    ⟨Or.inr hnew, Or.inr ⟨h.found, v, hv, fun _ => hnew⟩⟩
  have hsaid : s.output ++ lines (assign changedName trueWord) = lines (commitLine (upstream tick)) ++
    Verdict.moved.lines := by
    rw [hout, Verdict.lines, List.append_nil]
    rfl
  have hrun : (host tools tick).run .mv { s with tmp := some new } = _ := run_mv s new
  cases hmv : tick.moved with
  | true =>
    rw [hmv, if_pos rfl] at hrun
    have hmid : Reported tools tick file ((host tools tick).run .mv { s with tmp := some new }).2 :=
      hrun ▸ hmoved hout
    apply Script.meets_strict_cons hmid hmid
    intro _
    rw [hrun]
    exact Script.meets_strict_cons (hmoved hout) (hmoved hsaid) (fun _ => hmoved hsaid)
  | false =>
    rw [hmv, if_neg Bool.false_ne_true] at hrun
    have hstays : Reported tools tick file ((host tools tick).run .mv { s with tmp := some new }).2 := by
      rw [hrun]
      exact Asked.reported (s := { s with tmp := some new }) ⟨h.file, h.upstream, h.found⟩
        Verdict.noConfusion hout
    apply Script.meets_strict_cons hstays hstays
    intro hdone
    rw [hrun] at hdone
    cases hdone

lemma advance_meets (h : Asked tools tick file s) (hdiffers : readCommit tools file ≠ some (upstream tick))
    (hout : s.output = lines (commitLine (upstream tick)) ++ Verdict.none.lines) :
    advance.Meets (host tools tick) (fun _ => Reported tools tick file) (Reported tools tick file) s := by
  have hidle (tmp : Option (File α)) : Reported tools tick file { s with tmp := tmp } :=
    Asked.reported (s := { s with tmp := tmp }) ⟨h.file, h.upstream, h.found⟩ Verdict.noConfusion hout
  have hrun : Reported tools tick file ((host tools tick).run .rewrite s).2 := by
    rw [run_rewrite]
    cases (s.file.bind (List.mapM (pend s.upstreamSha tick.now))).filter (fun _ => tick.rewritten) with
    | none => exact hidle _
    | some changed => exact hidle _
  apply Script.meets_strict_cons (hidle _) hrun
  intro hdone
  rw [run_rewrite] at hdone ⊢
  cases hpend : (s.file.bind (List.mapM (pend s.upstreamSha tick.now))).filter (fun _ => tick.rewritten) with
  | none =>
    rw [hpend] at hdone
    cases hdone
  | some changed =>
    obtain ⟨values, hvalues, hchanged⟩ := Option.bind_eq_some_iff.mp (Option.filter_eq_some_iff.mp hpend).1
    rw [h.upstream] at hchanged
    exact mv_meets h hout ⟨hdiffers, tick.now, values, changed, h.file.symm.trans hvalues, hchanged, rfl⟩

lemma compare_meets (h : Asked tools tick file s) (hcurrent : readCommit tools file = some s.currentSha)
    (hout : s.output = []) :
    compare.Meets (host tools tick) (fun _ => Reported tools tick file) (Reported tools tick file) s := by
  have hidle : Reported tools tick file s := ⟨Or.inl h.file, Or.inl hout⟩
  have hcommits : lines (commitLine s.upstreamSha) = lines (commitLine (upstream tick)) ++
    Verdict.none.lines := by
    rw [h.upstream, Verdict.lines, List.append_nil]
  have htold : Asked tools tick file { s with output := s.output ++ lines (commitLine s.upstreamSha) } :=
    ⟨h.file, h.upstream, h.found⟩
  have hlines : s.output ++ lines (commitLine s.upstreamSha) = lines (commitLine (upstream tick)) ++
    Verdict.none.lines := by
    rw [hout, List.nil_append, hcommits]
  apply Script.meets_strict_cons hidle (htold.reported Verdict.noConfusion hlines)
  intro _
  split
  · have hsaid : (s.output ++ lines (commitLine s.upstreamSha)) ++ lines (assign changedName falseWord) =
        lines (commitLine (upstream tick)) ++ Verdict.same.lines := by
      rw [hlines, Verdict.lines, List.append_nil]
      rfl
    have hsame : Reported tools tick file { s with
        output := (s.output ++ lines (commitLine s.upstreamSha)) ++ lines (assign changedName falseWord) } :=
      ⟨Or.inl h.file, Or.inr ⟨h.found, .same, hsaid, Verdict.noConfusion⟩⟩
    exact Script.meets_strict_cons (htold.reported Verdict.noConfusion hlines) hsame (fun _ => hsame)
  · rename_i hne
    apply advance_meets htold _ hlines
    rw [hcurrent, ← h.upstream]
    exact fun heq => hne (Option.some.inj heq).symm

lemma syncCheck_meets (tools : Tools α) (tick : Tick α) (file : File α) :
    syncCheck.Meets (host tools tick) (fun _ => Reported tools tick file) (Reported tools tick file)
      (checkedOut file) := by
  have hstart : Reported tools tick file (checkedOut file) := ⟨Or.inl rfl, Or.inl rfl⟩
  cases hremote : tick.remote with
  | none =>
    have hrun : (host tools tick).run .lsRemote (checkedOut file) = (false, checkedOut file) := by
      simp only [host, runCommand, hremote]
    apply Script.meets_strict_cons hstart
    · exact hrun ▸ hstart
    · exact fun hdone => by rw [hrun] at hdone; cases hdone
  | some shas =>
    have hrun : (host tools tick).run .lsRemote (checkedOut file) =
        (true, { checkedOut file with upstreamSha := upstream tick }) := by
      simp only [host, runCommand, hremote, upstream, Option.getD_some]
    have hasked : Reported tools tick file { checkedOut file with upstreamSha := upstream tick } :=
      ⟨Or.inl rfl, Or.inl rfl⟩
    apply Script.meets_strict_cons hstart
    · exact hrun ▸ hasked
    intro _
    rw [hrun]
    show Script.Meets _ _ _ (if upstream tick = [] then _ else _) _
    split
    · exact hasked
    · rename_i hfound
      cases hread : readCommit tools file with
      | none =>
        have hfails : (host tools tick).run .readCommit { checkedOut file with upstreamSha := upstream tick } =
            (false, { checkedOut file with upstreamSha := upstream tick }) := by
          simp only [host, runCommand, checkedOut, hread]
        apply Script.meets_strict_cons hasked
        · exact hfails ▸ hasked
        · exact fun hdone => by rw [hfails] at hdone; cases hdone
      | some sha =>
        have hreads : (host tools tick).run .readCommit { checkedOut file with upstreamSha := upstream tick } =
            (true, { checkedOut file with upstreamSha := upstream tick, currentSha := sha }) := by
          simp only [host, runCommand, checkedOut, hread]
        have hread' : Reported tools tick file
            { checkedOut file with upstreamSha := upstream tick, currentSha := sha } :=
          ⟨Or.inl rfl, Or.inl rfl⟩
        apply Script.meets_strict_cons hasked
        · exact hreads ▸ hread'
        · intro _
          rw [hreads]
          exact compare_meets ⟨rfl, rfl, hfound⟩ hread rfl

end

lemma check_reported (tools : Tools α) (tick : Tick α) (file : File α) :
    Reported tools tick file (check tools tick file) := by
  have hsound := (syncCheck_meets tools tick file).sound tick.kill
  cases hend : (syncCheck.exec (host tools tick) tick.kill (checkedOut file)).1 with
  | none => exact hsound.2 hend
  | some r => exact hsound.1 r hend

lemma check_push {tools : Tools α} {tick : Tick α} {file : File α} {t : Text}
    (h : toPush (check tools tick file).output = some t) :
    (∃ sha : Sha, tick.remote = some [sha] ∧ t = sha.1) ∧
      Advanced tools file t (check tools tick file).file := by
  obtain ⟨-, hnil | ⟨hfound, v, hout, hmoved⟩⟩ := check_reported tools tick file
  · rw [hnil] at h
    cases h
  · cases hremote : tick.remote with
    | none =>
      rw [upstream, hremote] at hfound
      exact absurd rfl hfound
    | some shas =>
      have hupstream : upstream tick = captured (shas.map Subtype.val) :=
        by rw [upstream, hremote, Option.getD_some]
      rw [hupstream] at hout hfound hmoved
      rw [hout] at h
      obtain ⟨hv, sha, rfl, rfl⟩ := toPush_commits (fun hnil => hfound (captured_eq_nil.mpr hnil)) h
      rw [List.map_singleton, captured_single sha.last] at hmoved
      exact ⟨⟨sha, rfl, rfl⟩, hmoved hv⟩

def JobSound (tools : Tools α) (Seen : Text → Prop) (versions : List (Version α)) : Job α → Prop
  | .started base file =>
    base ≤ versions.length ∧ (base = versions.length → ∃ version earlier, versions = version :: earlier ∧
      version.file = file)
  | .changed base file t =>
    base ≤ versions.length ∧ Seen t ∧
      (base = versions.length → ∃ version earlier, versions = version :: earlier ∧
        Advanced tools version.file t file)

structure Sound (tools : Tools α) (Seen : Text → Prop) (b : Branch α) : Prop where
  linked : ∀ later version earlier, b.versions = later ++ version :: earlier → ∀ t ∈ version.pushed,
    Seen t ∧ ∃ old rest, earlier = old :: rest ∧ Advanced tools old.file t version.file
  job : ∀ job ∈ b.job, JobSound tools Seen b.versions job

section

variable {tools : Tools α} {Seen : Text → Prop} {b : Branch α}

lemma Sound.idle (h : Sound tools Seen b) : Sound tools Seen { b with job := none } :=
  ⟨h.linked, fun _ hj => absurd hj (Option.not_mem_none _)⟩

lemma Sound.linked_cons (h : Sound tools Seen b) {new : Version α}
    (hnew : ∀ t ∈ new.pushed, Seen t ∧ ∃ old rest, b.versions = old :: rest ∧
      Advanced tools old.file t new.file) :
    ∀ later version earlier, new :: b.versions = later ++ version :: earlier → ∀ t ∈ version.pushed,
      Seen t ∧ ∃ old rest, earlier = old :: rest ∧ Advanced tools old.file t version.file := by
  intro later version earlier heq
  cases later with
  | nil =>
    obtain ⟨rfl, rfl⟩ := List.cons.inj heq
    exact hnew
  | cons v later => exact h.linked later version earlier (List.cons.inj heq).2

lemma JobSound.edited {versions : List (Version α)} {job : Job α} (h : JobSound tools Seen versions job)
    (new : Version α) :
    JobSound tools Seen (new :: versions) job := by
  cases job with
  | started base file =>
    have hlt : base < (new :: versions).length := Nat.lt_succ_of_le h.1
    exact ⟨hlt.le, fun heq => absurd heq hlt.ne⟩
  | changed base file t =>
    have hlt : base < (new :: versions).length := Nat.lt_succ_of_le h.1
    exact ⟨hlt.le, h.2.1, fun heq => absurd heq hlt.ne⟩

lemma sound_check (h : Sound tools Seen b) (tick : Tick α)
    (hseen : ∀ sha : Sha, tick.remote = some [sha] → Seen sha.1) :
    Sound tools Seen (next tools b (.check tick)) := by
  rw [next]
  split
  · rename_i base file hjob
    refine ⟨h.linked, ?_⟩
    intro job hj
    obtain ⟨t, ht, rfl⟩ := Option.map_eq_some_iff.mp hj
    obtain ⟨⟨sha, hremote, rfl⟩, hadvanced⟩ := check_push ht
    obtain ⟨hle, hlast⟩ := h.job _ hjob
    refine ⟨hle, hseen sha hremote, fun heq => ?_⟩
    obtain ⟨version, earlier, hversions, rfl⟩ := hlast heq
    exact ⟨version, earlier, hversions, hadvanced⟩
  · exact h

lemma sound_push (h : Sound tools Seen b) (accepted : Bool) :
    Sound tools Seen (next tools b (.push accepted)) := by
  rw [next]
  split
  · rename_i base file t hjob
    split
    · rename_i hpush
      obtain ⟨-, hseen, hlast⟩ := h.job _ hjob
      refine ⟨h.linked_cons ?_, fun _ hj => absurd hj (Option.not_mem_none _)⟩
      intro t' ht
      obtain rfl := Option.some.inj ht
      obtain ⟨version, earlier, hversions, hadvanced⟩ := hlast hpush.2
      exact ⟨hseen, version, earlier, hversions, hadvanced⟩
    · exact h.idle
  · exact h

lemma sound_next (h : Sound tools Seen b) (event : Event α)
    (hseen : ∀ tick, event = .check tick → ∀ sha : Sha, tick.remote = some [sha] → Seen sha.1) :
    Sound tools Seen (next tools b event) := by
  cases event with
  | edit file =>
    refine ⟨h.linked_cons (fun t ht => absurd ht (Option.not_mem_none t)), ?_⟩
    exact fun job hj => (h.job job hj).edited ⟨file, none⟩
  | start =>
    rw [next]
    split
    · rename_i version earlier hjob hversions
      refine ⟨h.linked, fun job hj => ?_⟩
      obtain rfl := Option.some.inj hj
      exact ⟨le_rfl, fun _ => ⟨version, earlier, hversions, rfl⟩⟩
    · exact h
  | check tick => exact sound_check h tick (hseen tick rfl)
  | push accepted => exact sound_push h accepted
  | cancel => exact h.idle

end

def Answered (events : List (Event α)) (t : Text) : Prop :=
  ∃ tick, Event.check tick ∈ events ∧ ∃ sha : Sha, tick.remote = some [sha] ∧ t = sha.1

lemma sound_after (tools : Tools α) (file : File α) (events : List (Event α)) :
    Sound tools (Answered events) (after (next tools) ⟨[⟨file, none⟩], none⟩ events) := by
  apply invariant_inputs (Sound tools (Answered events))
  · intro b event hevent h
    apply sound_next h event
    rintro tick rfl sha hremote
    exact ⟨tick, hevent, sha, hremote, rfl⟩
  · refine ⟨?_, fun _ hj => absurd hj (Option.not_mem_none _)⟩
    intro later version earlier heq t ht
    have heq : [(⟨file, none⟩ : Version α)] = later ++ version :: earlier := heq
    have hversion : version ∈ [(⟨file, none⟩ : Version α)] := by
      rw [heq]
      exact List.mem_append_right later List.mem_cons_self
    rw [List.mem_singleton.mp hversion] at ht
    cases ht

theorem sync_sound (tools : Tools α) (file : File α) (events : List (Event α)) :
    ∀ later version earlier,
      (after (next tools) ⟨[⟨file, none⟩], none⟩ events).versions = later ++ version :: earlier →
      ∀ t ∈ version.pushed, Answered events t ∧ ∃ old rest, earlier = old :: rest ∧
        readCommit tools old.file ≠ some t ∧
        (∃ now values changed, old.file = some values ∧ values.mapM (pend t now) = some changed ∧
          version.file = some changed) ∧
        (∀ name, name ≠ commitField → name ≠ detectedField → name ≠ statusField →
          fieldsOf name version.file = fieldsOf name old.file) ∧
        ∀ j, old.file = some [j] → readCommit tools version.file = some t := by
  intro later version earlier hversions t ht
  obtain ⟨hseen, old, rest, rfl, hadvanced⟩ :=
    (sound_after tools file events).linked later version earlier hversions t ht
  refine ⟨hseen, old, rest, rfl, hadvanced.differs, hadvanced.pended, fun name => hadvanced.fieldsOf, ?_⟩
  intro j hj
  obtain ⟨-, -, sha, -, rfl⟩ := hseen
  rw [hj] at hadvanced
  exact hadvanced.readCommit sha.last

def oldHead : Sha := ⟨"32ff72".toList, by decide, List.all_eq_true.mp rfl⟩

def newHead : Sha := ⟨"91dda5".toList, by decide, List.all_eq_true.mp rfl⟩

def stateFile (sha : Sha) (now status : Text) : File ℕ :=
  some [.obj [(commitField, .str sha.1), (detectedField, .str now), (statusField, .str status)]]

def dayOne : Text := "2026-11-07T09:07:23Z".toList

def dayTwo : Text := "2026-11-08T09:07:23Z".toList

def newHeadTick : Tick ℕ := ⟨some [newHead], dayTwo, true, none, true, none⟩

def noTools : Tools ℕ := plainTools (fun _ => none)

def poll (tick : Tick α) : List (Event α) := [.start, .check tick, .push true]

theorem sync_sound_traced :
    Answered (poll newHeadTick) newHead.1 ∧ readCommit noTools (stateFile newHead dayTwo pending) =
      some newHead.1 := by
  obtain ⟨hseen, old, rest, hold, -, -, -, hread⟩ := sync_sound noTools (stateFile oldHead dayOne pending)
    (poll newHeadTick) [] ⟨stateFile newHead dayTwo pending, some newHead.1⟩
      [⟨stateFile oldHead dayOne pending, none⟩]
    rfl newHead.1 rfl
  obtain ⟨rfl, -⟩ := List.cons.inj hold
  exact ⟨hseen, hread _ rfl⟩

def Tick.Sees (tick : Tick α) (sha : Sha) : Prop := tick.Quiet ∧ tick.remote = some [sha]

lemma readCommit_obj (tools : Tools α) (fields : List (Text × Json α)) :
    ∃ t, readCommit tools (some [.obj fields]) = some t := by
  rw [readCommit, Option.bind_some, List.mapM_cons]
  exact ⟨_, rfl⟩

section

variable {tools : Tools α} {tick : Tick α} {sha : Sha} {fields : List (Text × Json α)}

lemma echo_verdict : lines (assign changedName falseWord) = Verdict.same.lines ∧
    lines (assign changedName trueWord) = Verdict.moved.lines :=
  ⟨lines_single (by decide), lines_single (by decide)⟩

lemma exec_compare (hquiet : tick.Quiet) {file : File α} {values : List (Json α)} {current : Text}
    (hpend : file.bind (List.mapM (pend sha.1 tick.now)) = some values) :
    (compare.exec (host tools tick) none ⟨file, none, sha.1, current, []⟩).2.output =
      lines (commitLine sha.1) ++ (if sha.1 = current then Verdict.same else Verdict.moved).lines := by
  obtain ⟨hrewritten, hmoved, -⟩ := hquiet
  rw [compare, Script.exec, Script.exec_strict]
  by_cases hsame : sha.1 = current
  · rw [if_pos hsame, if_pos hsame, ← echo_verdict.1]
    simp [Host.all, host, runCommand, Script.exec_strict, Script.exec]
  · rw [if_neg hsame, if_neg hsame, ← echo_verdict.2]
    simp [Host.all, host, runCommand, advance, Script.exec_strict, Script.exec, hpend, hrewritten, hmoved]

lemma toPush_check (h : tick.Sees sha) :
    toPush (check tools tick (some [.obj fields])).output =
      if readCommit tools (some [.obj fields]) = some sha.1 then none else some sha.1 := by
  obtain ⟨hquiet, hremote⟩ := h
  obtain ⟨current, hread⟩ := readCommit_obj tools fields
  obtain ⟨fields', hpend⟩ := pend_obj sha.1 tick.now fields
  have hup : captured [sha.1] = sha.1 := captured_single sha.last
  have hlines : lines (commitLine sha.1) = [commitLine sha.1] := by
    have hone := lines_commitLine sha []
    rwa [List.map_singleton, hup] at hone
  have hasked : (host tools tick).all [.lsRemote] (checkedOut (some [.obj fields])) =
      (true, { checkedOut (some [.obj fields]) with upstreamSha := sha.1 }) := by
    simp [Host.all, host, runCommand, hremote, hup]
  have hknown : (host tools tick).all [.readCommit]
    { checkedOut (some [.obj fields]) with upstreamSha := sha.1 } =
      (true, { checkedOut (some [.obj fields]) with upstreamSha := sha.1, currentSha := current }) := by
    simp [Host.all, host, runCommand, checkedOut, hread]
  rw [check, hquiet.2.2, syncCheck, Script.exec_strict, hasked, if_pos rfl]
  show toPush ((if sha.1 = [] then _ else _ : Script (Workspace α) Command Bool).exec (host tools tick)
    none _).2.output = _
  rw [if_neg sha.2.1, Script.exec_strict, hknown, if_pos rfl, hread]
  show toPush (compare.exec (host tools tick) none ⟨some [.obj fields], none, sha.1, current, []⟩).2.output = _
  have hpends : Option.bind (some [Json.obj fields]) (List.mapM (pend sha.1 tick.now)) = some [.obj fields'] :=
    Lists.mapM_cons_eq_some.mpr ⟨_, hpend, _, rfl, rfl⟩
  rw [exec_compare hquiet hpends, hlines, List.singleton_append, toPush_single]
  by_cases hsame : sha.1 = current
  · rw [if_pos hsame, if_pos (congrArg some hsame.symm)]
    rfl
  · rw [if_neg hsame, if_pos rfl, if_neg (fun heq => hsame (Option.some.inj heq).symm)]

lemma poll_same {version : Version α} (earlier : List (Version α)) (hfile : version.file = some [.obj fields])
    (h : tick.Sees sha) (hread : readCommit tools version.file = some sha.1) :
    after (next tools) ⟨version :: earlier, none⟩ (poll tick) = ⟨version :: earlier, none⟩ := by
  have hpush : toPush (check tools tick (some [.obj fields])).output = _ := toPush_check h
  rw [← hfile, if_pos hread] at hpush
  simp [poll, after, next, hpush]

lemma poll_moves {version : Version α} (earlier : List (Version α)) (hfile : version.file = some [.obj fields])
    (h : tick.Sees sha) (hread : readCommit tools version.file ≠ some sha.1) :
    ∃ fields', readCommit tools (some [.obj fields']) = some sha.1 ∧
      after (next tools) ⟨version :: earlier, none⟩ (poll tick) =
        ⟨⟨some [.obj fields'], some sha.1⟩ :: version :: earlier, none⟩ := by
  have hpush : toPush (check tools tick (some [.obj fields])).output = _ := toPush_check h
  rw [← hfile, if_neg hread] at hpush
  obtain ⟨-, hadvanced⟩ := check_push hpush
  obtain ⟨fields', hnew⟩ : ∃ fields', (check tools tick version.file).file = some [.obj fields'] := by
    obtain ⟨now, values, changed, hold, hpend, hnew⟩ := hadvanced.pended
    obtain rfl := Option.some.inj (hfile.symm.trans hold)
    obtain ⟨fields', hobj⟩ := pend_obj sha.1 now fields
    rw [List.mapM_cons, hobj] at hpend
    exact ⟨fields', hnew.trans (congrArg some (Option.some.inj hpend).symm)⟩
  refine ⟨fields', ?_, ?_⟩
  · rw [hfile] at hadvanced hnew
    rw [← hnew]
    exact hadvanced.readCommit sha.last
  · simp [poll, after, next, hpush, hnew]

end

lemma polls_same {tools : Tools α} {sha : Sha} {version : Version α} {earlier : List (Version α)}
    {fields : List (Text × Json α)} (hfile : version.file = some [.obj fields])
    (hread : readCommit tools version.file = some sha.1) {ticks : List (Tick α)}
    (h : ∀ tick ∈ ticks, tick.Sees sha) :
    after (next tools) ⟨version :: earlier, none⟩ (ticks.flatMap poll) = ⟨version :: earlier, none⟩ := by
  induction ticks with
  | nil => rfl
  | cons tick ticks ih =>
    rw [List.flatMap_cons, after, List.foldl_append]
    have hone := poll_same earlier hfile (h tick List.mem_cons_self) hread
    rw [after] at hone
    rw [hone]
    exact ih (fun t ht => h t (List.mem_cons_of_mem tick ht))

theorem polls_push_once (tools : Tools α) (sha : Sha) (version : Version α) (earlier : List (Version α))
    (fields : List (Text × Json α)) (hfile : version.file = some [.obj fields]) (tick : Tick α)
    (ticks : List (Tick α)) (h : ∀ t ∈ tick :: ticks, t.Sees sha) :
    ∃ fields', readCommit tools (some [.obj fields']) = some sha.1 ∧
      after (next tools) ⟨version :: earlier, none⟩ ((tick :: ticks).flatMap poll) =
        if readCommit tools version.file = some sha.1 then ⟨version :: earlier, none⟩
        else ⟨⟨some [.obj fields'], some sha.1⟩ :: version :: earlier, none⟩ := by
  by_cases hread : readCommit tools version.file = some sha.1
  · refine ⟨fields, hfile ▸ hread, ?_⟩
    rw [if_pos hread]
    exact polls_same hfile hread h
  · obtain ⟨fields', hnew, hone⟩ := poll_moves earlier hfile (h tick List.mem_cons_self) hread
    refine ⟨fields', hnew, ?_⟩
    rw [after] at hone
    rw [if_neg hread, List.flatMap_cons, after, List.foldl_append, hone]
    exact polls_same rfl hnew (fun t ht => h t (List.mem_cons_of_mem tick ht))

lemma newHeadTick_sees : ∀ t ∈ [newHeadTick, newHeadTick], t.Sees newHead := by
  simp [Tick.Sees, Tick.Quiet, newHeadTick]

theorem polls_push_once_traced :
    ∃ fields, readCommit noTools (some [.obj fields]) = some newHead.1 ∧
      after (next noTools) ⟨[⟨stateFile oldHead dayOne pending, none⟩], none⟩
        ([newHeadTick, newHeadTick].flatMap poll) =
        if readCommit noTools (stateFile oldHead dayOne pending) = some newHead.1 then
          ⟨[⟨stateFile oldHead dayOne pending, none⟩], none⟩
        else ⟨[⟨some [.obj fields], some newHead.1⟩, ⟨stateFile oldHead dayOne pending, none⟩], none⟩ :=
  polls_push_once noTools newHead ⟨stateFile oldHead dayOne pending, none⟩ [] _ rfl newHeadTick [newHeadTick]
    newHeadTick_sees

end ShMonitor.Workflow.Sync

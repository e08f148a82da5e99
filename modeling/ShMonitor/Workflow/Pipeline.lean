import ShMonitor.Workflow.Lifecycle
import ShMonitor.Workflow.Sync

/-! The workflows together. A version of the state file that reaches the branch asks for a run of
`ci-full.yml`, one of which goes on at a time; when its build job ends it calls `sh-regression.yml`,
which looks back at the runs that are over. -/

namespace ShMonitor.Workflow.Pipeline

open Texts Runs Concurrency LastGreen Regression
open Detection.RegressionDetect (BuildResult)
open Sync (File Version Branch)

variable {α A B : Type}

structure Outcome (A B : Type) where
  result : BuildResult
  failedStep : String
  dejagnu : A
  shSim : B

/-- The version that a run checks out, and its place on the branch. -/
structure Target (α : Type) where
  number : ℕ
  version : Version α

structure Trial (α A B : Type) where
  target : Target α
  outcome : Option (Outcome A B)

structure State (α A B : Type) where
  branch : Branch α
  ci : Group (Trial α A B) (Target α)
  ended : List (Trial α A B)
  board : Lifecycle.Board A B

inductive Event (α A B : Type) where
  | sync (event : Sync.Event α)
  | rebuilt
  | tested (outcome : Outcome A B)
  | concluded (conclusion : Conclusion)
  | byHand (run : Run A B)
  | regression (answer : Option Lookups) (unfinished : ℕ)
  | died
  | dismissed (number : ℕ)

def begin (target : Target α) : Trial α A B := ⟨target, none⟩

def head (branch : Branch α) : Option (Target α) := branch.versions.head?.map (Target.mk branch.versions.length)

def testedCommit (tools : Tools α) (file : File α) : Option Commit :=
  (Sync.settings (lines (Sync.commitLine ((Sync.readCommit tools file).getD [])))).bind fun found =>
    commitOf (Sync.lastOf Sync.commitField found)

/-- `json.loads(raw).get("commit")` -/
def recordedCommit : File α → Option Commit
  | some [.obj fields] =>
    match fields.lookup Sync.commitField with
    | some (.str t) => commitOf t
    | _ => none
  | _ => none

def conclusionOf : BuildResult → Conclusion
  | .success => .success
  | .failure => .failure
  | .cancelled => .cancelled
  | .skipped => .skipped

def runOf (tools : Tools α) (target : Target α) (outcome : Outcome A B) : Option (Run A B) :=
  (testedCommit tools target.version.file).map fun commit =>
    ⟨outcome.result, outcome.failedStep, commit, outcome.dejagnu, outcome.shSim⟩

def listed (id : ℕ) (conclusion : Conclusion) (trial : Trial α A B) : Option (WorkflowRun A B) :=
  trial.outcome.map fun outcome =>
    { id := id
      conclusion := some conclusion
      jobs := [⟨buildAndTest, some (conclusionOf outcome.result)⟩]
      lastTested := recordedCommit trial.target.version.file
      dejagnu := outcome.dejagnu
      shSim := outcome.shSim }

def toBoard (tools : Tools α) (s : State α A B) : Event α A B → List (Lifecycle.Event A B)
  | .tested outcome =>
    match s.ci.running with
    | some ⟨target, none⟩ => ((runOf tools target outcome).map Lifecycle.Event.queued).toList
    | _ => []
  | .concluded conclusion =>
    match s.ci.running with
    | some trial => ((listed s.ended.length conclusion trial).map Lifecycle.Event.concluded).toList
    | none => []
  | .byHand run => [.queued run]
  | .regression answer unfinished => [.step answer unfinished]
  | .died => [.die]
  | .dismissed number => [.dismissed number]
  | _ => []

def request (ci : Group (Trial α A B) (Target α)) (branch : Branch α) : Group (Trial α A B) (Target α) :=
  (head branch).elim ci (ci.request begin)

def nextBranch (tools : Tools α) (branch : Branch α) : Event α A B → Branch α
  | .sync event => Sync.next tools branch event
  | _ => branch

def nextCi (tools : Tools α) (s : State α A B) : Event α A B → Group (Trial α A B) (Target α)
  | .sync event =>
    let branch := Sync.next tools s.branch event
    if branch.versions.length = s.branch.versions.length then s.ci else request s.ci branch
  | .rebuilt => request s.ci s.branch
  | .tested outcome =>
    match s.ci.running with
    | some ⟨target, none⟩ => s.ci.proceed begin (some ⟨target, some outcome⟩)
    | _ => s.ci
  | .concluded _ => s.ci.proceed begin none
  | _ => s.ci

def nextEnded (s : State α A B) : Event α A B → List (Trial α A B)
  | .concluded _ => s.ci.running.toList ++ s.ended
  | _ => s.ended

def next (tools : Tools α) (lanes : Lanes A B) (s : State α A B) (event : Event α A B) : State α A B where
  branch := nextBranch tools s.branch event
  ci := nextCi tools s event
  ended := nextEnded s event
  board := (toBoard tools s event).foldl (Lifecycle.next lanes) s.board

def start (file : File α) : State α A B := ⟨⟨[⟨file, none⟩], none⟩, Group.idle, [], Lifecycle.start []⟩

variable {tools : Tools α} {lanes : Lanes A B} {s : State α A B}

lemma lastOf_single (value : Text) : Sync.lastOf Sync.commitField [(Sync.commitField, value)] = value := by
  rw [Sync.lastOf, List.reverse_singleton, List.lookup_cons_self, Option.getD_some]

lemma commits_pended {sha now : Text} {values changed : List (Json α)}
    (h : values.mapM (Sync.pend sha now) = some changed) :
    changed.mapM (Json.field Sync.commitField) = some (values.map (fun _ => .str sha)) := by
  induction values generalizing changed with
  | nil =>
    obtain rfl := Option.some.inj h
    rfl
  | cons j values ih =>
    obtain ⟨j', hj, changed, hchanged, rfl⟩ := Lists.mapM_cons_eq_some.mp h
    have hfield : j'.field Sync.commitField = some (.str sha) := by
      rw [Sync.field_pend hj (by decide) (by decide), if_pos rfl]
    rw [List.mapM_cons, ih hchanged, hfield]
    rfl

lemma settings_commits (sha : Sync.Sha) (shas : List Sync.Sha) :
    Sync.settings (lines (Sync.commitLine (Sync.captured ((sha :: shas).map Subtype.val)))) =
      if shas = [] then some [(Sync.commitField, sha.1)] else none := by
  rw [Sync.lines_commitLine, Sync.commitLine, Sync.settings_cons Sync.commitField_plain]
  cases shas with
  | nil => rfl
  | cons sha' shas =>
    have hnone : Sync.settings ((sha' :: shas).map Subtype.val) = none := Sync.settings_sha List.mem_cons_self
    rw [hnone, if_neg (List.cons_ne_nil _ _)]
    rfl

lemma testedCommit_advanced {old new : File α} {sha : Sync.Sha} (h : Sync.Advanced tools old sha.1 new)
    {commit : Commit} (hc : testedCommit tools new = some commit) : commit.1 = sha.1 := by
  obtain ⟨found, hfound, hcommit⟩ := Option.bind_eq_some_iff.mp hc
  obtain ⟨now, values, changed, rfl, hpend, rfl⟩ := h.pended
  have hread : Sync.readCommit tools (some changed) =
    some (Sync.captured ((values.map (fun _ => sha)).map Subtype.val)) := by
    rw [Sync.readCommit, Option.bind_some, commits_pended hpend, Option.map_some, List.map_map, List.map_map]
    rfl
  rw [hread, Option.getD_some] at hfound
  cases values with
  | nil =>
    have hline : lines (Sync.commitLine (Sync.captured [])) = [Sync.assign Sync.commitField []] :=
      lines_single (by decide)
    rw [List.map_nil, List.map_nil, hline, Sync.settings_cons Sync.commitField_plain] at hfound
    have hempty : [(Sync.commitField, [])] = found := Option.some.inj hfound
    rw [← hempty, lastOf_single] at hcommit
    cases hcommit
  | cons j rest =>
    rw [List.map_cons, settings_commits] at hfound
    split at hfound
    · obtain rfl := Option.some.inj hfound
      rw [lastOf_single] at hcommit
      exact val_of_commitOf hcommit
    · cases hfound

lemma recordedCommit_advanced {old new : File α} {sha : Text} (h : Sync.Advanced tools old sha new)
    {commit : Commit} (hc : recordedCommit new = some commit) : commit.1 = sha := by
  obtain ⟨now, values, changed, rfl, hpend, rfl⟩ := h.pended
  rw [recordedCommit.eq_def] at hc
  split at hc
  · rename_i fields heq
    obtain rfl := Option.some.inj heq
    split at hc
    · rename_i t ht
      have hcommits : some [(Json.str t : Json α)] = some (values.map (fun _ => (Json.str sha : Json α))) := by
        rw [← commits_pended hpend, List.mapM_cons, Json.field, ht]
        rfl
      have hmem : (Json.str t : Json α) ∈ values.map (fun _ => Json.str sha) := by
        rw [← Option.some.inj hcommits]
        exact List.mem_singleton_self _
      obtain ⟨j, -, hj⟩ := List.mem_map.mp hmem
      rw [val_of_commitOf hc, Json.str.inj hj]
    · cases hc
  · cases hc

lemma versions_grow (tools : Tools α) (branch : Branch α) (event : Sync.Event α) :
    (Sync.next tools branch event).versions = branch.versions ∨
      ∃ version, (Sync.next tools branch event).versions = version :: branch.versions := by
  cases event with
  | edit file => exact Or.inr ⟨_, rfl⟩
  | start =>
    rw [Sync.next]
    split <;> exact Or.inl rfl
  | check tick =>
    rw [Sync.next]
    split <;> exact Or.inl rfl
  | push accepted =>
    rw [Sync.next]
    split
    · split
      · exact Or.inr ⟨_, rfl⟩
      · exact Or.inl rfl
    · exact Or.inl rfl
  | cancel => exact Or.inl rfl

lemma versions_next (event : Event α A B) :
    ∀ version ∈ s.branch.versions, version ∈ (next tools lanes s event).branch.versions := by
  intro version hv
  cases event with
  | sync event =>
    have hgrow := versions_grow tools s.branch event
    rcases hgrow with h | ⟨new, h⟩
    · exact h ▸ hv
    · exact h ▸ List.mem_cons_of_mem new hv
  | _ => exact hv

def targets (ci : Group (Trial α A B) (Target α)) : List (Target α) := ci.held Trial.target id

lemma target_begin (target : Target α) : (begin target : Trial α A B).target = id target := rfl

lemma targets_request (ci : Group (Trial α A B) (Target α)) (target : Target α) :
    targets (ci.request begin target) = target :: (ci.running.map Trial.target).toList :=
      Group.held_request target_begin ci target

lemma targets_proceed (ci : Group (Trial α A B) (Target α)) (trial : Option (Trial α A B)) :
    targets (ci.proceed begin trial) = ci.waiting.toList ++ (trial.map Trial.target).toList := by
  rw [targets, Group.held_proceed target_begin, Option.map_id, id]

lemma targets_eq (ci : Group (Trial α A B) (Target α)) :
    targets ci = ci.waiting.toList ++ (ci.running.map Trial.target).toList := by
  rw [targets, Group.held, Option.map_id, id]

structure Inv (s : State α A B) : Prop where
  versions : ∀ target ∈ targets s.ci, target.version ∈ s.branch.versions
  newest : s.branch.versions.length = 1 ∨
    ∃ target ∈ targets s.ci ++ s.ended.map Trial.target, head s.branch = some target
  nonempty : s.branch.versions ≠ []
  settled : s.ci.Settled

lemma head_eq {branch : Branch α} (h : branch.versions ≠ []) :
    ∃ version ∈ branch.versions, head branch = some ⟨branch.versions.length, version⟩ := by
  obtain ⟨version, earlier, hv⟩ := List.exists_cons_of_ne_nil h
  refine ⟨version, hv ▸ List.mem_cons_self, ?_⟩
  rw [head, hv]
  rfl

lemma inv_request (h : Inv s) {branch : Branch α}
    (hsub : ∀ version ∈ s.branch.versions, version ∈ branch.versions)
    (hne : branch.versions ≠ []) (board : Lifecycle.Board A B) :
    Inv { branch := branch, ci := request s.ci branch, ended := s.ended, board := board } := by
  obtain ⟨version, hversion, hhead⟩ := head_eq hne
  have hci : request s.ci branch = s.ci.request begin ⟨branch.versions.length, version⟩ := by
    rw [request, hhead]
    rfl
  refine ⟨?_, Or.inr ⟨⟨branch.versions.length, version⟩, ?_, hhead⟩, hne, ?_⟩
  · intro target ht
    rw [hci, targets_request, List.mem_cons] at ht
    rcases ht with rfl | ht
    · exact hversion
    · apply hsub
      apply h.versions
      rw [targets_eq]
      exact List.mem_append_right _ ht
  · rw [hci, targets_request]
    exact List.mem_cons_self
  · rw [hci]
    exact Group.settled_settle begin _

lemma inv_sync (h : Inv s) (event : Sync.Event α) : Inv (next tools lanes s (.sync event)) := by
  have hnext : next tools lanes s (.sync event) =
      { branch := Sync.next tools s.branch event, ci := nextCi tools s (.sync event), ended :=
        s.ended, board := s.board } := rfl
  rw [hnext, nextCi]
  rcases versions_grow tools s.branch event with hgrow | ⟨new, hgrow⟩
  · rw [if_pos (congrArg List.length hgrow)]
    refine ⟨?_, ?_, ?_, h.settled⟩
    · rw [hgrow]
      exact h.versions
    · rw [head, hgrow]
      exact h.newest
    · rw [hgrow]
      exact h.nonempty
  · have hlength : (Sync.next tools s.branch event).versions.length ≠ s.branch.versions.length := by
      rw [hgrow, List.length_cons]
      omega
    rw [if_neg hlength]
    apply inv_request h
    · intro version hv
      rw [hgrow]
      exact List.mem_cons_of_mem new hv
    · rw [hgrow]
      exact List.cons_ne_nil _ _

lemma inv_tested (h : Inv s) (outcome : Outcome A B) : Inv (next tools lanes s (.tested outcome)) := by
  have hnext : (next tools lanes s (.tested outcome)).ci = nextCi tools s (.tested outcome) := rfl
  have hci : targets (nextCi tools s (.tested outcome)) = targets s.ci ∧
    (nextCi tools s (.tested outcome)).Settled := by
    rw [nextCi]
    split
    · rename_i target hrunning
      rw [targets_proceed, targets_eq, hrunning]
      exact ⟨rfl, Group.settled_settle begin _⟩
    · exact ⟨rfl, h.settled⟩
  refine ⟨?_, ?_, h.nonempty, hci.2⟩
  · rw [hnext, hci.1]
    exact h.versions
  · rw [hnext, hci.1]
    exact h.newest

lemma inv_concluded (h : Inv s) (conclusion : Conclusion) :
    Inv (next tools lanes s (.concluded conclusion)) := by
  have hci : targets (next tools lanes s (.concluded conclusion)).ci = s.ci.waiting.toList := by
    have htargets := targets_proceed s.ci none
    rw [Option.map_none, Option.toList_none, List.append_nil] at htargets
    exact htargets
  refine ⟨?_, ?_, h.nonempty, Group.settled_settle begin _⟩
  · rw [hci]
    intro target ht
    apply h.versions
    rw [targets_eq]
    exact List.mem_append_left _ ht
  · refine h.newest.imp_right (fun ⟨target, ht, hhead⟩ => ⟨target, ?_, hhead⟩)
    have hended : (next tools lanes s (.concluded conclusion)).ended = s.ci.running.toList ++ s.ended := rfl
    rw [hci, hended, List.map_append]
    rw [targets_eq, List.append_assoc] at ht
    cases hr : s.ci.running <;> simpa [hr] using ht

lemma inv_next (event : Event α A B) (h : Inv s) : Inv (next tools lanes s event) := by
  cases event with
  | sync event => exact inv_sync h event
  | rebuilt => exact inv_request h (fun _ hv => hv) h.nonempty _
  | tested outcome => exact inv_tested h outcome
  | concluded conclusion => exact inv_concluded h conclusion
  | byHand run | regression answer unfinished | died | dismissed number =>
    exact ⟨h.versions, h.newest, h.nonempty, h.settled⟩

lemma inv_start (file : File α) : Inv (start file : State α A B) where
  versions := fun _ ht => nomatch ht
  newest := Or.inl rfl
  nonempty := List.cons_ne_nil _ _
  settled := fun _ => rfl

lemma inv_after (tools : Tools α) (lanes : Lanes A B) (file : File α) (events : List (Event α A B)) :
    Inv (after (next tools lanes) (start file) events) :=
  invariant_always Inv (fun _ event h => inv_next event h) (inv_start file) events

theorem newest_tested (tools : Tools α) (lanes : Lanes A B) (file : File α) (events : List (Event α A B)) :
    let s := after (next tools lanes) (start file) events
    s.branch.versions.length = 1 ∨
      (∃ target ∈ targets s.ci ++ s.ended.map Trial.target, head s.branch = some target) ∧
        (s.ci.running = none → ∃ trial ∈ s.ended, head s.branch = some trial.target) := by
  have hinv := inv_after tools lanes file events
  refine hinv.newest.imp_right (fun hnewest => ⟨hnewest, fun hidle => ?_⟩)
  obtain ⟨target, ht, hhead⟩ := hnewest
  rw [targets_eq, hidle, hinv.settled hidle, Option.toList_none, List.nil_append, Option.map_none,
    Option.toList_none, List.nil_append] at ht
  obtain ⟨trial, htrial, rfl⟩ := List.mem_map.mp ht
  exact ⟨trial, htrial, hhead⟩

def syncEvent : Event α A B → Option (Sync.Event α)
  | .sync event => some event
  | _ => none

lemma branch_after (s : State α A B) (events : List (Event α A B)) :
    (after (next tools lanes) s events).branch =
      after (Sync.next tools) s.branch (events.filterMap syncEvent) := by
  induction events generalizing s with
  | nil => rfl
  | cons event events ih =>
    have hrest := ih (next tools lanes s event)
    cases event <;> exact hrest

lemma board_after (s : State α A B) (events : List (Event α A B)) :
    (after (next tools lanes) s events).board =
      after (Lifecycle.next lanes) s.board (observed (next tools lanes) (toBoard tools) s events) :=
  seen_after (fun _ => True) State.board (fun _ _ _ => trivial) (fun _ _ _ => rfl) trivial events

lemma versions_after (s : State α A B) (events : List (Event α A B)) :
    ∀ version ∈ s.branch.versions, version ∈ (after (next tools lanes) s events).branch.versions := by
  induction events generalizing s with
  | nil => exact fun _ hv => hv
  | cons event events ih =>
    intro version hv
    exact ih (next tools lanes s event) version (versions_next event version hv)

/-- A version of the branch has the commit; where the sync pushed that version, upstream had
answered with it. -/
def Named (read : File α → Option Commit) (syncs : List (Sync.Event α)) (versions : List (Version α))
    (commit : Commit) :
    Prop :=
  ∃ version ∈ versions, read version.file = some commit ∧ ∀ t ∈ version.pushed, t = commit.1 ∧
    Sync.Answered syncs t

lemma named_of_version {read : File α → Option Commit}
    (hread : ∀ old new, ∀ sha : Sync.Sha, ∀ commit, Sync.Advanced tools old sha.1 new →
      read new = some commit → commit.1 = sha.1)
    (file : File α) (events : List (Event α A B)) {version : Version α} {commit : Commit}
    (hversion : version ∈ (after (next tools lanes) (start file) events).branch.versions)
    (hcommit : read version.file = some commit) :
    Named read (events.filterMap syncEvent)
      (after (next tools lanes) (start file) events).branch.versions commit := by
  refine ⟨version, hversion, hcommit, ?_⟩
  intro t ht
  rw [branch_after] at hversion
  obtain ⟨later, earlier, hversions⟩ := List.append_of_mem hversion
  have hsound := Sync.sound_after tools file (events.filterMap syncEvent)
  obtain ⟨hseen, old, rest, -, hadvanced⟩ := hsound.linked later version earlier hversions t ht
  obtain ⟨tick, htick, sha, hremote, rfl⟩ := hseen
  exact ⟨(hread _ _ sha commit hadvanced hcommit).symm, tick, htick, sha, hremote, rfl⟩

lemma mem_targets_running {ci : Group (Trial α A B) (Target α)} {trial : Trial α A B}
    (h : ci.running = some trial) :
    trial.target ∈ targets ci := by
  rw [targets_eq, h]
  exact List.mem_append_right _ (List.mem_singleton_self _)

lemma queued_of_toBoard {event : Event α A B} {run : Run A B} (h : .queued run ∈ toBoard tools s event) :
    event = .byHand run ∨ ∃ target ∈ targets s.ci,
      testedCommit tools target.version.file = some run.commit := by
  cases event with
  | tested outcome =>
    rw [toBoard] at h
    split at h
    · rename_i target hrunning
      obtain ⟨run', hrun, heq⟩ := Option.map_eq_some_iff.mp (Option.mem_toList.mp h)
      obtain ⟨commit, hcommit, rfl⟩ := Option.map_eq_some_iff.mp hrun
      obtain rfl := Lifecycle.Event.queued.inj heq
      exact Or.inr ⟨target, mem_targets_running hrunning, hcommit⟩
    · cases h
  | concluded conclusion =>
    rw [toBoard] at h
    split at h
    · obtain ⟨run', -, heq⟩ := Option.map_eq_some_iff.mp (Option.mem_toList.mp h)
      cases heq
    · cases h
  | byHand run' =>
    obtain rfl := Lifecycle.Event.queued.inj (List.mem_singleton.mp h)
    exact Or.inl rfl
  | regression answer unfinished | died | dismissed number => cases List.mem_singleton.mp h
  | sync event | rebuilt => cases h

lemma concluded_of_toBoard {event : Event α A B} {run : WorkflowRun A B}
    (h : .concluded run ∈ toBoard tools s event) :
    ∃ target ∈ targets s.ci, run.lastTested = recordedCommit target.version.file := by
  cases event with
  | tested outcome =>
    rw [toBoard] at h
    split at h
    · obtain ⟨run', -, heq⟩ := Option.map_eq_some_iff.mp (Option.mem_toList.mp h)
      cases heq
    · cases h
  | concluded conclusion =>
    rw [toBoard] at h
    split at h
    · rename_i trial hrunning
      obtain ⟨run', hrun, heq⟩ := Option.map_eq_some_iff.mp (Option.mem_toList.mp h)
      obtain ⟨outcome, -, rfl⟩ := Option.map_eq_some_iff.mp hrun
      obtain rfl := Lifecycle.Event.concluded.inj heq
      exact ⟨trial.target, mem_targets_running hrunning, rfl⟩
    · cases h
  | byHand run' | regression answer unfinished | died | dismissed number => cases List.mem_singleton.mp h
  | sync event | rebuilt => cases h

lemma version_later (tools : Tools α) (lanes : Lanes A B) (file : File α)
    (before later : List (Event α A B)) {target : Target α}
    (h : target ∈ targets (after (next tools lanes) (start file) before).ci) :
    target.version ∈ (after (next tools lanes) (start file) (before ++ later)).branch.versions := by
  have hversion := (inv_after tools lanes file before).versions target h
  rw [after, List.foldl_append]
  exact versions_after _ later _ hversion

end ShMonitor.Workflow.Pipeline

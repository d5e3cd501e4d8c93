import Mathlib.Algebra.GroupWithZero.Nat
import Mathlib.Algebra.Order.BigOperators.Group.List
import Mathlib.Data.Finset.Sort
import Mathlib.Data.Prod.Lex
import Mathlib.Data.String.Basic
import FineractBi.Lib.Rounds

/-!
The connector reconciler: `plan_actions` compares the desired connectors with
the observed ones, and a Kafka Connect cluster executes the actions. Source ids
and traces take no part in a plan and are left out.
-/
namespace FineractBi.Reconciler
open Rounds

def MANAGED_PREFIX : String := "fbi-src-"

inductive ActionKind
  | CREATE | UPDATE | RESTART_FAILED | PAUSE | RESUME | DELETE
  deriving DecidableEq, Repr

abbrev Config := Relation String String

/-- A cluster and a connector name; the order is the one that orphans are deleted in. -/
abbrev Place := String ×ₗ String

def Place.name (place : Place) : String := (ofLex place).2

structure DesiredConnector where
  name : String
  cluster : String
  config : Config
  paused : Bool

def DesiredConnector.place (d : DesiredConnector) : Place := toLex (d.cluster,d.name)

structure ObservedConnector where
  config : Config
  state : String
  taskStates : List String

structure ConnectorAction where
  kind : ActionKind
  name : String
  cluster : String
  config : Option Config

def ConnectorAction.place (a : ConnectorAction) : Place := toLex (a.cluster,a.name)

structure CdcSettings where
  maxCreatesPerRun : Int
  maxDeletesPerRun : Int
  deleteOrphans : Bool
  deriving DecidableEq, Repr

/-- What the clusters list. -/
abbrev Observed := Relation Place ObservedConnector

section
variable (settings : CdcSettings) (desired : List DesiredConnector) (observed : Observed)

/-- Some key of the desired config has another value. -/
def drift (d : DesiredConnector) (obs : ObservedConnector) : Bool :=
  decide (∃ k ∈ d.config.keys, obs.config.get k ≠ d.config.get k)

/-- The observed config has another key. -/
def stale (d : DesiredConnector) (obs : ObservedConnector) : Bool :=
  decide ((obs.config.keys \ d.config.keys) \ {"name"}).Nonempty

def planMissing (d : DesiredConnector) : List ConnectorAction :=
  ⟨.CREATE,d.name,d.cluster,some d.config⟩ :: if d.paused then [⟨.PAUSE,d.name,d.cluster,none⟩] else []

def planPresent (d : DesiredConnector) (obs : ObservedConnector) : List ConnectorAction :=
  (if drift d obs || stale d obs then [⟨.UPDATE,d.name,d.cluster,some d.config⟩] else []) ++
  (if d.paused && obs.state ≠ "PAUSED" then [⟨.PAUSE,d.name,d.cluster,none⟩]
    else if !d.paused && obs.state = "PAUSED" then [⟨.RESUME,d.name,d.cluster,none⟩] else []) ++
  (if obs.state = "FAILED" || obs.taskStates.contains "FAILED" then [⟨.RESTART_FAILED,d.name,d.cluster,none⟩] else [])

/-- The loop over the desired connectors, with the creates so far: actions and deferred names. -/
def planDesired : List DesiredConnector → Int → List ConnectorAction × List String
  | [], _ => ([],[])
  | d :: rest, creates =>
    match observed.get d.place with
    | none =>
      if creates ≥ settings.maxCreatesPerRun then
        let later := planDesired rest creates
        (later.1,d.name :: later.2)
      else
        let later := planDesired rest (creates + 1)
        (planMissing d ++ later.1,later.2)
    | some obs =>
      let later := planDesired rest creates
      (planPresent d obs ++ later.1,later.2)

variable (isProtected : String → Bool)

/-- A managed connector that is neither desired in its cluster nor protected. -/
def orphan (place : Place) : Bool :=
  place.name.startsWith MANAGED_PREFIX && !desired.any (fun d => d.place = place) && !isProtected place.name

def deletion (place : Place) : ConnectorAction := ⟨.DELETE,place.name,(ofLex place).1,none⟩

/-- The loop over the observed connectors, with the deletes so far. -/
def planOrphans : List Place → Int → List ConnectorAction × List String
  | [], _ => ([],[])
  | place :: rest, deletes =>
    if !orphan desired isProtected place then planOrphans rest deletes
    else if deletes ≥ settings.maxDeletesPerRun then
      let later := planOrphans rest deletes
      (later.1,place.name :: later.2)
    else
      let later := planOrphans rest (deletes + 1)
      (deletion place :: later.1,later.2)

/-- `sorted(desired, key=lambda x: x.name)`. -/
def byName : List DesiredConnector := desired.insertionSort (fun a b => a.name ≤ b.name)

/-- `plan_actions`; the protected names are those that the predicate holds of. -/
def planActions : List ConnectorAction × List String :=
  let created := planDesired settings observed (byName desired) 0
  let deleted := if settings.deleteOrphans
    then planOrphans settings desired isProtected (observed.keys.sort (· ≤ ·)) 0 else ([],[])
  (created.1 ++ deleted.1,created.2 ++ deleted.2)

end

inductive TargetState
  | RUNNING | PAUSED
  deriving DecidableEq, Repr

def TargetState.value : TargetState → String
  | .RUNNING => "RUNNING"
  | .PAUSED => "PAUSED"

/-- A connector in a Connect cluster. -/
structure Connector where
  config : Config
  target : TargetState
  state : String
  taskStates : List String

def observe (c : Connector) : ObservedConnector := ⟨c.config,c.state,c.taskStates⟩

/-- A part that has failed stays failed until it is restarted. -/
def retarget (t : TargetState) (c : Connector) : Connector :=
  let move := fun s => if s = "FAILED" then s else t.value
  { c with target := t, state := move c.state, taskStates := c.taskStates.map move }

def restart (c : Connector) : Connector :=
  let recover := fun s => if s = "FAILED" then c.target.value else s
  { c with state := recover c.state, taskStates := c.taskStates.map recover }

section
variable (tasks : Place → Config → Nat)

/-- PUT of a config: it is stored with the name; a new connector starts with its `tasks`. -/
def putConfig (place : Place) (config : Config) (c : Option Connector) : Connector :=
  let stored := config.alter {"name"} (fun _ _ => some place.name)
  match c with
  | none => ⟨stored,.RUNNING,"RUNNING",List.replicate (tasks place config) "RUNNING"⟩
  | some c => { c with config := stored }

/-- `ConnectClient.execute` and what the cluster does with the connector. -/
def execute (a : ConnectorAction) (c : Option Connector) : Option Connector :=
  match a.kind with
  | .CREATE | .UPDATE => some (putConfig tasks a.place (a.config.getD Relation.empty) c)
  | .RESTART_FAILED => c.map restart
  | .PAUSE => c.map (retarget .PAUSED)
  | .RESUME => c.map (retarget .RUNNING)
  | .DELETE => none

/-- All connectors of all clusters. -/
abbrev Clusters := Relation Place Connector

def observeAll (clusters : Clusters) : Observed := clusters.filterMap (fun _ c => some (observe c))

/-- One round: plan, then execute all actions. -/
def round (settings : CdcSettings) (desired : List DesiredConnector) (isProtected : String → Bool)
    (clusters : Clusters) : Clusters :=
  perform (·.place) (execute tasks) clusters
    (planActions settings desired (observeAll clusters) isProtected).1

end

/-! ### One plan -/

@[simp] theorem place_name (d : DesiredConnector) : d.place.name = d.name := rfl

@[simp] theorem deletion_place (place : Place) : (deletion place).place = place := rfl

section
variable {settings : CdcSettings} {desired : List DesiredConnector} {observed : Observed} {isProtected : String → Bool}

/-- What is planned for a desired connector, where those of `created` are created. -/
def work (observed : Observed) (created : List Place) (d : DesiredConnector) : List ConnectorAction :=
  match observed.get d.place with
  | none => if d.place ∈ created then planMissing d else []
  | some obs => planPresent d obs

def missing (observed : Observed) (desired : List DesiredConnector) : List Place :=
  (desired.map (·.place)).filter (fun place => (observed.get place).isNone)

/-- The first of the missing connectors are created, the others deferred. -/
theorem planDesired_eq (l : List DesiredConnector) (n : Int) (distinct : (l.map (·.place)).Nodup) :
    planDesired settings observed l n =
      (l.flatMap (work observed ((missing observed l).take (settings.maxCreatesPerRun - n).toNat)),
        ((missing observed l).drop (settings.maxCreatesPerRun - n).toNat).map Place.name) := by
  induction l generalizing n with
  | nil => simp [planDesired,missing]
  | cons d rest ih =>
    rw [List.map_cons,List.nodup_cons] at distinct
    cases found : observed.get d.place with
    | some obs =>
      simp [planDesired,found,ih n distinct.2,missing,work]
    | none =>
      by_cases full : n ≥ settings.maxCreatesPerRun
      · have none_left : (settings.maxCreatesPerRun - n).toNat = 0 := by omega
        simp [planDesired,found,full,ih n distinct.2,missing,work,none_left]
      · have one_left : (settings.maxCreatesPerRun - n).toNat = (settings.maxCreatesPerRun - (n + 1)).toNat + 1 := by
          omega
        have others : ∀ created : List Place, rest.flatMap (work observed (d.place :: created)) =
            rest.flatMap (work observed created) := by
          intro created
          refine List.flatMap_congr (fun e inside => ?_)
          have differs : e.place ≠ d.place := fun same => distinct.1 (List.mem_map.mpr ⟨e,inside,same⟩)
          simp [work,differs]
        have gap : (missing observed (d :: rest)) = d.place :: missing observed rest := by simp [missing,found]
        rw [gap,one_left,List.take_succ_cons,List.drop_succ_cons,List.flatMap_cons,others]
        simp [planDesired,found,full,ih (n + 1) distinct.2,work]

/-- The first of the orphans are deleted, the others deferred. -/
theorem planOrphans_eq (l : List Place) (n : Int) : planOrphans settings desired isProtected l n =
    (((l.filter (orphan desired isProtected)).take (settings.maxDeletesPerRun - n).toNat).map deletion,
      ((l.filter (orphan desired isProtected)).drop (settings.maxDeletesPerRun - n).toNat).map Place.name) := by
  induction l generalizing n with
  | nil => simp [planOrphans]
  | cons place rest ih =>
    by_cases is : orphan desired isProtected place
    · by_cases full : n ≥ settings.maxDeletesPerRun
      · have none_left : (settings.maxDeletesPerRun - n).toNat = 0 := by omega
        simp [planOrphans,is,full,ih n,none_left]
      · have one_left : (settings.maxDeletesPerRun - n).toNat = (settings.maxDeletesPerRun - (n + 1)).toNat + 1 := by
          omega
        simp [planOrphans,is,full,ih (n + 1),one_left]
    · simp [planOrphans,is,ih n]

/-- The connectors that a plan creates and deletes, and those that it puts off. -/
def toCreate (settings : CdcSettings) (desired : List DesiredConnector) (observed : Observed) : List Place :=
  (missing observed (byName desired)).take settings.maxCreatesPerRun.toNat

def orphans (desired : List DesiredConnector) (observed : Observed) (isProtected : String → Bool) : List Place :=
  (observed.keys.sort (· ≤ ·)).filter (orphan desired isProtected)

def toDelete (settings : CdcSettings) (desired : List DesiredConnector) (observed : Observed)
    (isProtected : String → Bool) : List Place :=
  (orphans desired observed isProtected).take settings.maxDeletesPerRun.toNat

def putOff (settings : CdcSettings) (desired : List DesiredConnector) (observed : Observed)
    (isProtected : String → Bool) : List Place :=
  (missing observed (byName desired)).drop settings.maxCreatesPerRun.toNat ++
    (orphans desired observed isProtected).drop settings.maxDeletesPerRun.toNat

private theorem byName_perm (desired : List DesiredConnector) : (byName desired).Perm desired := List.perm_insertionSort _ _

private theorem places_nodup (distinct : (desired.map (·.name)).Nodup) : ((byName desired).map (·.place)).Nodup := by
  have places : (desired.map (·.place)).Nodup := by
    refine List.Nodup.of_map Place.name ?_
    rw [List.map_map]
    exact distinct
  exact ((byName_perm desired).map _).nodup_iff.mpr places

private theorem planActions_eq (distinct : (desired.map (·.name)).Nodup) (deletes : settings.deleteOrphans = true) :
    planActions settings desired observed isProtected =
      ((byName desired).flatMap (work observed (toCreate settings desired observed)) ++
        (toDelete settings desired observed isProtected).map deletion,
        (putOff settings desired observed isProtected).map Place.name) := by
  simp [planActions,deletes,planDesired_eq _ _ (places_nodup distinct),planOrphans_eq,toCreate,toDelete,putOff,orphans]

/-- All that is planned for a desired connector is at its place, and no deletion. -/
theorem work_place {created : List Place} {d : DesiredConnector} {a : ConnectorAction}
    (planned : a ∈ work observed created d) : a.place = d.place ∧ a.kind ≠ .DELETE := by
  unfold work at planned
  split at planned
  · split at planned
    · unfold planMissing at planned
      split at planned
      all_goals
        simp only [List.mem_cons,List.not_mem_nil,or_false] at planned
        rcases planned with rfl | rfl
      all_goals exact ⟨rfl,by simp⟩
    · cases planned
  · unfold planPresent at planned
    simp only [List.mem_append] at planned
    rcases planned with (planned | planned) | planned
    all_goals repeat' split at planned
    all_goals simp only [List.mem_cons,List.not_mem_nil,or_false] at planned
    all_goals
      subst planned
      exact ⟨rfl,by simp⟩

private theorem mem_orphans {place : Place} : place ∈ orphans desired observed isProtected ↔
    (observed.get place).isSome ∧ orphan desired isProtected place = true := by
  simp [orphans,observed.mem_keys]

private theorem orphan_iff {place : Place} : orphan desired isProtected place = true ↔
    place.name.startsWith MANAGED_PREFIX ∧ (∀ d ∈ desired, d.place ≠ place) ∧ isProtected place.name = false := by
  simp [orphan,and_assoc]

private theorem mem_missing {place : Place} : place ∈ missing observed (byName desired) ↔
    (∃ d ∈ desired, d.place = place) ∧ observed.get place = none := by
  have places : place ∈ (byName desired).map (·.place) ↔ ∃ d ∈ desired, d.place = place := by
    rw [((byName_perm desired).map _).mem_iff,List.mem_map]
  rw [missing,List.mem_filter,places,Option.isNone_iff_eq_none]

/-- The actions at the place of a desired connector are those planned for it. -/
theorem planned_desired (distinct : (desired.map (·.name)).Nodup) (deletes : settings.deleteOrphans = true)
    {d : DesiredConnector} (member : d ∈ desired) :
    (planActions settings desired observed isProtected).1.filter (fun a => a.place = d.place) =
      work observed (toCreate settings desired observed) d := by
  have kept : ((toDelete settings desired observed isProtected).map deletion).filter (fun a => a.place = d.place) = [] := by
    rw [List.filter_eq_nil_iff]
    intro a inside
    obtain ⟨place,picked,rfl⟩ := List.mem_map.mp inside
    obtain ⟨_,is⟩ := mem_orphans.mp (List.mem_of_mem_take picked)
    exact fun same => (orphan_iff.mp is).2.1 d member (of_decide_eq_true same).symm
  rw [planActions_eq distinct deletes,List.filter_append,kept,List.append_nil]
  exact filter_own (fun _ _ _ planned => (work_place planned).1) (places_nodup distinct)
    ((byName_perm desired).mem_iff.mpr member)

/-- The only action at another place is its deletion. -/
theorem planned_other (distinct : (desired.map (·.name)).Nodup) (deletes : settings.deleteOrphans = true)
    {place : Place} (other : ∀ d ∈ desired, d.place ≠ place) :
    (planActions settings desired observed isProtected).1.filter (fun a => a.place = place) =
      ((toDelete settings desired observed isProtected).filter (fun p => p = place)).map deletion := by
  rw [planActions_eq distinct deletes,List.filter_append,
    filter_absent DesiredConnector.place (fun _ _ _ planned => (work_place planned).1) ?_,List.nil_append,
    List.filter_map]
  · rfl
  · exact fun d inside => other d ((byName_perm desired).mem_iff.mp inside)

/-- What an operator may expect of one plan. -/
structure Safe (settings : CdcSettings) (desired : List DesiredConnector) (observed : Observed)
    (isProtected : String → Bool) (actions : List ConnectorAction) (deferred : List String) : Prop where
  confined : ∀ a ∈ actions, (∃ d ∈ desired, d.place = a.place) ∨
    a.name.startsWith MANAGED_PREFIX ∧ isProtected a.name = false
  kept : ∀ a ∈ actions, a.kind = .DELETE → ∀ d ∈ desired, d.place ≠ a.place
  accounted : ∃ later : List Place, deferred = later.map Place.name ∧
    (∀ d ∈ desired, observed.get d.place = none →
      actions.countP (fun a => a.kind = .CREATE ∧ a.place = d.place) + later.count d.place = 1) ∧
    (∀ place, (observed.get place).isSome → orphan desired isProtected place = true →
      actions.countP (fun a => a.kind = .DELETE ∧ a.place = place) + later.count place = 1) ∧
    ∀ place ∈ later, (∃ d ∈ desired, d.place = place) ∧ observed.get place = none ∨
      (observed.get place).isSome ∧ orphan desired isProtected place = true
  creates : (actions.countP (fun a => a.kind = .CREATE) : Int) ≤ settings.maxCreatesPerRun
  deletes : (actions.countP (fun a => a.kind = .DELETE) : Int) ≤ settings.maxDeletesPerRun

private theorem planMissing_creates (d : DesiredConnector) : (planMissing d).countP (fun a => a.kind = .CREATE) = 1 := by
  unfold planMissing
  split <;> simp

private theorem planPresent_creates (d : DesiredConnector) (obs : ObservedConnector) :
    (planPresent d obs).countP (fun a => a.kind = .CREATE) = 0 := by
  unfold planPresent
  simp only [List.countP_append]
  repeat' split
  all_goals simp

variable (settings observed) in
theorem planDesired_creates (l : List DesiredConnector) (n : Int) :
    ((planDesired settings observed l n).1.countP (fun a => a.kind = .CREATE) : Int) ≤
      max (settings.maxCreatesPerRun - n) 0 := by
  induction l generalizing n with
  | nil => simp [planDesired]
  | cons d rest ih =>
    unfold planDesired
    split
    · split
      · exact ih n
      · have step := ih (n + 1)
        simp only [List.countP_append,planMissing_creates]
        omega
    · simpa [List.countP_append,planPresent_creates] using ih n

/-- Of two parts of a list without repetitions one has the element. -/
theorem count_split {α : Type} [BEq α] [LawfulBEq α] {l : List α} (distinct : l.Nodup) (n : Nat) {x : α} (member : x ∈ l) :
    (l.take n).count x + (l.drop n).count x = 1 := by
  rw [← List.count_append,List.take_append_drop]
  exact List.count_eq_one_of_mem distinct member

private theorem missing_nodup (distinct : (desired.map (·.name)).Nodup) : (missing observed (byName desired)).Nodup :=
  (places_nodup distinct).filter _

private theorem orphans_nodup : (orphans desired observed isProtected).Nodup := (observed.keys.sort_nodup _).filter _

/-- The creates at the place of a missing connector. -/
theorem count_create (distinct : (desired.map (·.name)).Nodup) (deletes : settings.deleteOrphans = true)
    {d : DesiredConnector} (member : d ∈ desired) (absent : observed.get d.place = none) :
    (planActions settings desired observed isProtected).1.countP (fun a => a.kind = .CREATE ∧ a.place = d.place) =
      (toCreate settings desired observed).count d.place := by
  have nodup : (toCreate settings desired observed).Nodup := (missing_nodup distinct).sublist (List.take_sublist _ _)
  simp only [Bool.decide_and,← List.countP_filter]
  rw [planned_desired distinct deletes member]
  simp only [work,absent]
  split
  · next picked => rw [planMissing_creates,List.count_eq_one_of_mem nodup picked]
  · next skipped => rw [List.countP_nil,List.count_eq_zero_of_not_mem skipped]

/-- The deletes at the place of an orphan. -/
theorem count_delete (distinct : (desired.map (·.name)).Nodup) (deletes : settings.deleteOrphans = true)
    {place : Place} (is : orphan desired isProtected place = true) :
    (planActions settings desired observed isProtected).1.countP (fun a => a.kind = .DELETE ∧ a.place = place) =
      (toDelete settings desired observed isProtected).count place := by
  simp only [Bool.decide_and,← List.countP_filter]
  rw [planned_other distinct deletes (orphan_iff.mp is).2.1,List.countP_map,List.countP_filter,List.count]
  refine List.countP_congr (fun p _ => ?_)
  simp [deletion]

private theorem plan_safe (distinct : (desired.map (·.name)).Nodup) (deletes : settings.deleteOrphans = true)
    (creating : 1 ≤ settings.maxCreatesPerRun) (deleting : 1 ≤ settings.maxDeletesPerRun) :
    Safe settings desired observed isProtected (planActions settings desired observed isProtected).1
      (planActions settings desired observed isProtected).2 where
  confined := by
    intro a planned
    rw [planActions_eq distinct deletes] at planned
    rcases List.mem_append.mp planned with worked | deleted
    · obtain ⟨d,member,own⟩ := List.mem_flatMap.mp worked
      exact .inl ⟨d,(byName_perm desired).mem_iff.mp member,(work_place own).1.symm⟩
    · obtain ⟨place,picked,rfl⟩ := List.mem_map.mp deleted
      obtain ⟨managed,_,free⟩ := orphan_iff.mp (mem_orphans.mp (List.mem_of_mem_take picked)).2
      exact .inr ⟨managed,free⟩
  kept := by
    intro a planned deletion' d member
    rw [planActions_eq distinct deletes] at planned
    rcases List.mem_append.mp planned with worked | deleted
    · obtain ⟨_,_,own⟩ := List.mem_flatMap.mp worked
      exact absurd deletion' (work_place own).2
    · obtain ⟨place,picked,rfl⟩ := List.mem_map.mp deleted
      exact (orphan_iff.mp (mem_orphans.mp (List.mem_of_mem_take picked)).2).2.1 d member
  accounted := by
    refine ⟨putOff settings desired observed isProtected,by rw [planActions_eq distinct deletes],?_,?_,?_⟩
    · intro d member absent
      have gap := mem_missing.mpr ⟨⟨d,member,rfl⟩,absent⟩
      have foreign : ((orphans desired observed isProtected).drop settings.maxDeletesPerRun.toNat).count d.place = 0 := by
        refine List.count_eq_zero_of_not_mem (fun inside => ?_)
        simpa [absent] using (mem_orphans.mp (List.mem_of_mem_drop inside)).1
      rw [count_create distinct deletes member absent,putOff,List.count_append,foreign,Nat.add_zero]
      exact count_split (missing_nodup distinct) _ gap
    · intro place there is
      have own := mem_orphans.mpr ⟨there,is⟩
      have foreign : ((missing observed (byName desired)).drop settings.maxCreatesPerRun.toNat).count place = 0 := by
        refine List.count_eq_zero_of_not_mem (fun inside => ?_)
        simp [(mem_missing.mp (List.mem_of_mem_drop inside)).2] at there
      rw [count_delete distinct deletes is,putOff,List.count_append,foreign,Nat.zero_add]
      exact count_split orphans_nodup _ own
    · intro place inside
      rcases List.mem_append.mp inside with gap | own
      · exact .inl (mem_missing.mp (List.mem_of_mem_drop gap))
      · exact .inr (mem_orphans.mp (List.mem_of_mem_drop own))
  creates := by
    have bound := planDesired_creates settings observed (byName desired) 0
    have none_deleted : ((toDelete settings desired observed isProtected).map deletion).countP
        (fun a => a.kind = .CREATE) = 0 := by
      simp [List.countP_map,Function.comp_def,deletion]
    rw [planDesired_eq _ _ (places_nodup distinct),sub_zero] at bound
    rw [planActions_eq distinct deletes,List.countP_append,none_deleted]
    simp only [toCreate,Nat.add_zero] at bound ⊢
    omega
  deletes := by
    have none_worked : ((byName desired).flatMap (work observed (toCreate settings desired observed))).countP
        (fun a => a.kind = .DELETE) = 0 := by
      rw [List.countP_eq_zero]
      intro a planned
      obtain ⟨_,_,own⟩ := List.mem_flatMap.mp planned
      simpa using (work_place own).2
    have all_deleted := List.countP_le_length (p := fun a => decide (a.kind = .DELETE))
      (l := (toDelete settings desired observed isProtected).map deletion)
    have bound : (toDelete settings desired observed isProtected).length ≤ settings.maxDeletesPerRun.toNat :=
      List.length_take_le _ _
    rw [List.length_map] at all_deleted
    rw [planActions_eq distinct deletes,List.countP_append,none_worked]
    omega

end

/-- The observed config is that of the desired connector. -/
def Current (d : DesiredConnector) (config : Config) : Prop :=
  (∀ k ∈ d.config.keys, config.get k = d.config.get k) ∧ ∀ k ∈ config.keys, k ∈ d.config.keys ∨ k = "name"

private theorem current_iff (d : DesiredConnector) (obs : ObservedConnector) :
    (drift d obs || stale d obs) = false ↔ Current d obs.config := by
  simp only [drift,stale,Bool.or_eq_false_iff,decide_eq_false_iff_not,Current,not_exists,not_and,not_not,
    Finset.not_nonempty_iff_eq_empty,Finset.sdiff_eq_empty_iff_subset,Finset.subset_iff,Finset.mem_sdiff,
    Finset.mem_singleton]
  refine and_congr_right (fun _ => forall_congr' (fun k => ?_))
  tauto

section
variable {tasks : Place → Config → Nat} {d : DesiredConnector}

variable (tasks) in
/-- What a PUT of the desired config stores. -/
theorem put_current (unnamed : d.config.get "name" = none) (place : Place) (c : Option Connector) :
    Current d (putConfig tasks place d.config c).config := by
  have stored : (putConfig tasks place d.config c).config = d.config.alter {"name"} (fun _ _ => some place.name) := by
    cases c <;> rfl
  rw [stored]
  constructor
  · intro k inside
    have other : k ≠ "name" := by
      rintro rfl
      simpa [unnamed] using (d.config.mem_keys _).mp inside
    simp [Relation.alter_get,other]
  · intro k inside
    by_cases named : k = "name"
    · exact .inr named
    · have there := (Relation.mem_keys _ k).mp inside
      rw [Relation.alter_get,if_neg (by simpa using named)] at there
      exact .inl ((d.config.mem_keys k).mpr there)

/-- A connector for which nothing is planned. -/
structure Settled (d : DesiredConnector) (obs : ObservedConnector) : Prop where
  current : Current d obs.config
  paused : d.paused = true → obs.state = "PAUSED"
  running : d.paused = false → obs.state ≠ "PAUSED"
  healthy : obs.state ≠ "FAILED" ∧ "FAILED" ∉ obs.taskStates

theorem settled_iff {obs : ObservedConnector} : planPresent d obs = [] ↔ Settled d obs := by
  have updates : (if drift d obs || stale d obs then
      [ConnectorAction.mk .UPDATE d.name d.cluster (some d.config)] else []) = [] ↔ Current d obs.config := by
    refine Iff.trans ?_ (current_iff d obs)
    cases drift d obs || stale d obs <;> simp
  unfold planPresent
  rw [List.append_eq_nil_iff,List.append_eq_nil_iff,updates]
  constructor
  · rintro ⟨⟨current,moves⟩,restarts⟩
    refine ⟨current,?_,?_,by simpa using restarts⟩
    · intro paused
      by_contra other
      simp [paused,other] at moves
    · intro running paused
      simp [running,paused] at moves
  · rintro ⟨current,paused,running,healthy⟩
    refine ⟨⟨current,?_⟩,by simpa using healthy⟩
    cases wanted : d.paused with
    | true => simp [paused wanted]
    | false => simp [running wanted]

/-- What the three parts of a plan for `obs` make of a connector. -/
def updated (tasks : Place → Config → Nat) (d : DesiredConnector) (obs : ObservedConnector) (c : Connector) : Connector :=
  if drift d obs || stale d obs then putConfig tasks d.place d.config (some c) else c

def steered (d : DesiredConnector) (obs : ObservedConnector) (c : Connector) : Connector :=
  if d.paused && obs.state ≠ "PAUSED" then retarget .PAUSED c
  else if !d.paused && obs.state = "PAUSED" then retarget .RUNNING c else c

def healed (obs : ObservedConnector) (c : Connector) : Connector :=
  if obs.state = "FAILED" || obs.taskStates.contains "FAILED" then restart c else c

/-- The connector after what is planned for it. -/
def advance (tasks : Place → Config → Nat) (d : DesiredConnector) (c : Connector) : Connector :=
  healed (observe c) (steered d (observe c) (updated tasks d (observe c) c))

variable (tasks d) in
theorem planPresent_performed (obs : ObservedConnector) (c : Connector) :
    (planPresent d obs).foldl (fun row a => execute tasks a row) (some c) =
      some (healed obs (steered d obs (updated tasks d obs c))) := by
  unfold planPresent
  rw [List.foldl_append,List.foldl_append]
  have updates : (if drift d obs || stale d obs then
        [ConnectorAction.mk .UPDATE d.name d.cluster (some d.config)] else []).foldl
        (fun row a => execute tasks a row) (some c) = some (updated tasks d obs c) := by
    unfold updated
    split <;> rfl
  have steers (x : Connector) : (if d.paused && obs.state ≠ "PAUSED" then
        [ConnectorAction.mk .PAUSE d.name d.cluster none]
        else if !d.paused && obs.state = "PAUSED" then [ConnectorAction.mk .RESUME d.name d.cluster none]
        else []).foldl (fun row a => execute tasks a row) (some x) = some (steered d obs x) := by
    unfold steered
    repeat' split
    all_goals rfl
  have heals (x : Connector) : (if obs.state = "FAILED" || obs.taskStates.contains "FAILED" then
        [ConnectorAction.mk .RESTART_FAILED d.name d.cluster none] else []).foldl
        (fun row a => execute tasks a row) (some x) = some (healed obs x) := by
    unfold healed
    split <;> rfl
  rw [updates,steers,heals]

@[simp] theorem steered_config (obs : ObservedConnector) (c : Connector) : (steered d obs c).config = c.config := by
  unfold steered
  repeat' split
  all_goals rfl

@[simp] theorem healed_config (obs : ObservedConnector) (c : Connector) : (healed obs c).config = c.config := by
  unfold healed
  split <;> rfl

@[simp] theorem updated_state (obs : ObservedConnector) (c : Connector) : (updated tasks d obs c).state = c.state := by
  unfold updated
  split <;> rfl

@[simp] theorem updated_target (obs : ObservedConnector) (c : Connector) : (updated tasks d obs c).target = c.target := by
  unfold updated
  split <;> rfl

private theorem advance_current (unnamed : d.config.get "name" = none) (c : Connector) :
    Current d (observe (advance tasks d c)).config := by
  have put : Current d (updated tasks d (observe c) c).config := by
    unfold updated
    split
    · exact put_current tasks unnamed _ _
    · next clean => exact (current_iff d (observe c)).mp (by simpa using clean)
  simpa [observe,advance] using put

private theorem target_healthy (t : TargetState) : t.value ≠ "FAILED" := by cases t <;> decide

/-- No part of the connector has failed. -/
def Healthy (c : Connector) : Prop := c.state ≠ "FAILED" ∧ "FAILED" ∉ c.taskStates

private theorem restart_healthy (c : Connector) : Healthy (restart c) := by
  refine ⟨?_,?_⟩
  · simp only [restart]
    split
    · exact target_healthy _
    · assumption
  · simp only [restart,List.mem_map,not_exists,not_and]
    intro s _
    split
    · exact target_healthy _
    · assumption

private theorem retarget_healthy {c : Connector} (t : TargetState) (healthy : Healthy c) : Healthy (retarget t c) := by
  refine ⟨?_,?_⟩
  · simp only [retarget,healthy.1,if_false]
    exact target_healthy t
  · simp only [retarget,List.mem_map,not_exists,not_and]
    intro s inside
    have other : s ≠ "FAILED" := by
      rintro rfl
      exact healthy.2 inside
    simp only [other,if_false]
    exact target_healthy t

private theorem advance_healthy (c : Connector) : Healthy (advance tasks d c) := by
  unfold advance healed
  split
  · exact restart_healthy _
  · next well =>
    have healthy : (observe c).state ≠ "FAILED" ∧ "FAILED" ∉ (observe c).taskStates := by simpa using well
    have put : Healthy (updated tasks d (observe c) c) := by
      unfold updated
      split <;> exact healthy
    unfold steered
    repeat' split
    · exact retarget_healthy _ put
    · exact retarget_healthy _ put
    · exact put

/-- A connector that should be paused is paused after one plan. -/
theorem advance_paused (wanted : d.paused = true) (c : Connector) : (advance tasks d c).state = "PAUSED" := by
  by_cases paused : c.state = "PAUSED"
  · have steer : steered d (observe c) (updated tasks d (observe c) c) = updated tasks d (observe c) c := by
      simp [steered,wanted,observe,paused]
    unfold advance healed
    rw [steer]
    split
    · simp [restart,paused]
    · simp [paused]
  · have steer : steered d (observe c) (updated tasks d (observe c) c) =
        retarget .PAUSED (updated tasks d (observe c) c) := by
      simp [steered,wanted,observe,paused]
    unfold advance healed
    rw [steer]
    split
    · by_cases failed : c.state = "FAILED"
      · simp [restart,retarget,failed,TargetState.value]
      · simp [restart,retarget,failed,TargetState.value]
    · next well =>
      have healthy : (observe c).state ≠ "FAILED" ∧ "FAILED" ∉ (observe c).taskStates := by simpa using well
      have state : c.state ≠ "FAILED" := healthy.1
      simp [retarget,state,TargetState.value]

/-- A connector that should run and has not failed is not paused after one plan. -/
theorem advance_running (wanted : d.paused = false) {c : Connector} (state : c.state ≠ "FAILED") :
    (advance tasks d c).state ≠ "PAUSED" := by
  by_cases paused : c.state = "PAUSED"
  · have steer : steered d (observe c) (updated tasks d (observe c) c) =
        retarget .RUNNING (updated tasks d (observe c) c) := by
      simp [steered,wanted,observe,paused]
    unfold advance healed
    rw [steer]
    split <;> simp [restart,retarget,paused,TargetState.value]
  · have steer : steered d (observe c) (updated tasks d (observe c) c) = updated tasks d (observe c) c := by
      simp [steered,wanted,observe,paused]
    unfold advance healed
    rw [steer]
    split <;> simp [restart,state,paused]

/-- Two plans settle every connector: the first may bring a failed one back to a stale target. -/
theorem advance_settled (unnamed : d.config.get "name" = none) (c : Connector) :
    Settled d (observe (advance tasks d (advance tasks d c))) where
  current := advance_current unnamed _
  paused := fun wanted => advance_paused wanted _
  running := fun wanted => advance_running wanted (advance_healthy c).1
  healthy := advance_healthy _

variable (tasks) in
/-- What a plan creates is settled. -/
theorem created_settled (unnamed : d.config.get "name" = none) :
    ∃ c, (planMissing d).foldl (fun row a => execute tasks a row) none = some c ∧ Settled d (observe c) := by
  have put := put_current tasks unnamed d.place none
  have fresh : Healthy (putConfig tasks d.place d.config none) := by
    refine ⟨by simp [putConfig],?_⟩
    simp [putConfig,List.mem_replicate]
  cases wanted : d.paused with
  | true =>
    have performed : (planMissing d).foldl (fun row a => execute tasks a row) none =
        some (retarget .PAUSED (putConfig tasks d.place d.config none)) := by
      simp only [planMissing,wanted,if_true]
      rfl
    exact ⟨_,performed,put,fun _ => by simp [observe,retarget,putConfig,TargetState.value],by simp [wanted],
      retarget_healthy .PAUSED fresh⟩
  | false =>
    have performed : (planMissing d).foldl (fun row a => execute tasks a row) none =
        some (putConfig tasks d.place d.config none) := by
      simp only [planMissing,wanted,Bool.false_eq_true,if_false]
      rfl
    exact ⟨_,performed,put,by simp [wanted],fun _ => by simp [observe,putConfig],fresh⟩

end

/-! ### Rounds -/

section
variable {tasks : Place → Config → Nat} {settings : CdcSettings} {desired : List DesiredConnector}
  {isProtected : String → Bool} {clusters : Clusters}

/-- How many rounds a desired connector may still need. -/
def distance (tasks : Place → Config → Nat) (d : DesiredConnector) : Option Connector → Nat
  | none => 1
  | some c =>
    if (planPresent d (observe c)).isEmpty then 0
    else if (planPresent d (observe (advance tasks d c))).isEmpty then 1 else 2

/-- The places of the orphans. -/
def orphanPlaces (desired : List DesiredConnector) (isProtected : String → Bool) (clusters : Clusters) : Finset Place :=
  clusters.keys.filter (fun place => orphan desired isProtected place)

def rank (tasks : Place → Config → Nat) (desired : List DesiredConnector) (isProtected : String → Bool)
    (clusters : Clusters) : Nat :=
  (desired.map (fun d => distance tasks d (clusters.get d.place))).sum + (orphanPlaces desired isProtected clusters).card

@[simp] theorem observeAll_get (place : Place) :
    (observeAll clusters).get place = (clusters.get place).map observe := by
  simp only [observeAll,Relation.filterMap_get]
  cases clusters.get place <;> rfl

/-- What a round makes of a desired connector. -/
theorem round_desired (distinct : (desired.map (·.name)).Nodup) (deletes : settings.deleteOrphans = true)
    {d : DesiredConnector} (member : d ∈ desired) :
    (round tasks settings desired isProtected clusters).get d.place =
      (work (observeAll clusters) (toCreate settings desired (observeAll clusters)) d).foldl
        (fun row a => execute tasks a row) (clusters.get d.place) := by
  rw [round,perform_get,planned_desired distinct deletes member]

private theorem round_present (distinct : (desired.map (·.name)).Nodup) (deletes : settings.deleteOrphans = true)
    {d : DesiredConnector} (member : d ∈ desired) {c : Connector} (there : clusters.get d.place = some c) :
    (round tasks settings desired isProtected clusters).get d.place = some (advance tasks d c) := by
  rw [round_desired distinct deletes member,work,observeAll_get,there]
  exact planPresent_performed tasks d (observe c) c

private theorem deletions_performed (places : List Place) (row : Option Connector) :
    (places.map deletion).foldl (fun row a => execute tasks a row) row = if places = [] then row else none := by
  induction places generalizing row with
  | nil => rfl
  | cons place rest ih =>
    rw [List.map_cons,List.foldl_cons,ih]
    simp [execute,deletion]

/-- A round takes an orphan away or leaves it, and makes none. -/
theorem round_other (distinct : (desired.map (·.name)).Nodup) (deletes : settings.deleteOrphans = true)
    {place : Place} (other : ∀ d ∈ desired, d.place ≠ place) :
    (round tasks settings desired isProtected clusters).get place =
      if place ∈ toDelete settings desired (observeAll clusters) isProtected then none else clusters.get place := by
  rw [round,perform_get,planned_other distinct deletes other,deletions_performed]
  by_cases picked : place ∈ toDelete settings desired (observeAll clusters) isProtected
  · rw [if_pos picked,if_neg]
    exact List.ne_nil_of_mem (List.mem_filter.mpr ⟨picked,by simp⟩)
  · rw [if_neg picked,if_pos]
    refine List.filter_eq_nil_iff.mpr (fun p inside same => picked ?_)
    rwa [← of_decide_eq_true same]

/-- No connector is missing, none is an orphan and all are settled. -/
def Quiet (desired : List DesiredConnector) (isProtected : String → Bool) (clusters : Clusters) : Prop :=
  (∀ d ∈ desired, ∃ c, clusters.get d.place = some c ∧ Settled d (observe c)) ∧
    ∀ place, (clusters.get place).isSome → orphan desired isProtected place = false

/-- Nothing is planned for quiet clusters. -/
theorem plan_quiet (distinct : (desired.map (·.name)).Nodup) (deletes : settings.deleteOrphans = true)
    (quiet : Quiet desired isProtected clusters) :
    planActions settings desired (observeAll clusters) isProtected = ([],[]) := by
  obtain ⟨settled,owned⟩ := quiet
  have no_gap : missing (observeAll clusters) (byName desired) = [] := by
    refine List.eq_nil_iff_forall_not_mem.mpr (fun place inside => ?_)
    obtain ⟨⟨d,member,rfl⟩,absent⟩ := mem_missing.mp inside
    obtain ⟨c,there,_⟩ := settled d member
    simp [there] at absent
  have no_orphan : orphans desired (observeAll clusters) isProtected = [] := by
    refine List.eq_nil_iff_forall_not_mem.mpr (fun place inside => ?_)
    obtain ⟨there,is⟩ := mem_orphans.mp inside
    rw [owned place (by simpa using there)] at is
    cases is
  have no_work : (byName desired).flatMap (work (observeAll clusters) (toCreate settings desired (observeAll clusters))) =
      [] := by
    refine List.flatMap_eq_nil_iff.mpr (fun d inside => ?_)
    obtain ⟨c,there,calm⟩ := settled d ((byName_perm desired).mem_iff.mp inside)
    simp only [work,observeAll_get,there,Option.map_some]
    exact settled_iff.mpr calm
  rw [planActions_eq distinct deletes,no_work,toDelete,putOff,no_gap,no_orphan]
  simp

/-- A round brings no desired connector further away, and a present one that is not settled nearer. -/
theorem distance_round (distinct : (desired.map (·.name)).Nodup) (deletes : settings.deleteOrphans = true)
    {d : DesiredConnector} (member : d ∈ desired) (unnamed : d.config.get "name" = none) :
    distance tasks d ((round tasks settings desired isProtected clusters).get d.place) ≤
        distance tasks d (clusters.get d.place) ∧
      ∀ c, clusters.get d.place = some c → ¬ Settled d (observe c) →
        distance tasks d ((round tasks settings desired isProtected clusters).get d.place) <
          distance tasks d (clusters.get d.place) := by
  cases there : clusters.get d.place with
  | none =>
    refine ⟨?_,fun c found => by cases found⟩
    rw [round_desired distinct deletes member,work,observeAll_get,there]
    simp only [Option.map_none]
    split
    · obtain ⟨c,performed,settled⟩ := created_settled tasks unnamed
      rw [performed]
      simp [distance,settled_iff.mpr settled]
    · exact le_rfl
  | some c =>
    rw [round_present distinct deletes member there]
    have done : (planPresent d (observe (advance tasks d (advance tasks d c)))).isEmpty = true := by
      rw [settled_iff.mpr (advance_settled unnamed c)]
      rfl
    have step : distance tasks d (some (advance tasks d c)) ≤ 1 := by
      simp only [distance,done,if_true]
      split <;> decide
    by_cases settled : (planPresent d (observe c)).isEmpty = true
    · have nothing := List.isEmpty_iff.mp settled
      have same : advance tasks d c = c := by
        have performed := planPresent_performed tasks d (observe c) c
        rw [nothing] at performed
        exact (Option.some.inj performed).symm
      rw [same]
      refine ⟨le_rfl,fun c' found unsettled => ?_⟩
      obtain rfl := Option.some.inj found
      exact absurd (settled_iff.mp nothing) unsettled
    · by_cases next' : (planPresent d (observe (advance tasks d c))).isEmpty = true
      · have zero : distance tasks d (some (advance tasks d c)) = 0 := by simp [distance,next']
        have one : distance tasks d (some c) = 1 := by simp [distance,settled,next']
        rw [zero,one]
        exact ⟨Nat.zero_le _,fun _ _ _ => Nat.one_pos⟩
      · have two : distance tasks d (some c) = 2 := by simp [distance,settled,next']
        rw [two]
        exact ⟨step.trans (by decide),fun _ _ _ => Nat.lt_of_le_of_lt step (by decide)⟩

/-- A round creates a connector, if any is missing. -/
theorem some_created (creating : 1 ≤ settings.maxCreatesPerRun) (observed : Observed) {d : DesiredConnector}
    (member : d ∈ desired) (absent : observed.get d.place = none) :
    ∃ d' ∈ desired, observed.get d'.place = none ∧ d'.place ∈ toCreate settings desired observed := by
  have gap : d.place ∈ missing observed (byName desired) := mem_missing.mpr ⟨⟨d,member,rfl⟩,absent⟩
  obtain ⟨place,rest,places⟩ := List.exists_cons_of_ne_nil (List.ne_nil_of_mem gap)
  obtain ⟨n,limit⟩ : ∃ n, settings.maxCreatesPerRun.toNat = n + 1 := ⟨settings.maxCreatesPerRun.toNat - 1,by omega⟩
  have first : place ∈ toCreate settings desired observed := by
    rw [toCreate,places,limit,List.take_succ_cons]
    exact List.mem_cons_self
  obtain ⟨⟨d',member',rfl⟩,absent'⟩ := mem_missing.mp (List.mem_of_mem_take first)
  exact ⟨d',member',absent',first⟩

/-- A round deletes an orphan, if there is any. -/
theorem some_deleted (deleting : 1 ≤ settings.maxDeletesPerRun) (observed : Observed) {place : Place}
    (there : (observed.get place).isSome) (is : orphan desired isProtected place = true) :
    ∃ place', place' ∈ toDelete settings desired observed isProtected := by
  obtain ⟨first,rest,places⟩ := List.exists_cons_of_ne_nil (List.ne_nil_of_mem (mem_orphans.mpr ⟨there,is⟩))
  obtain ⟨n,limit⟩ : ∃ n, settings.maxDeletesPerRun.toNat = n + 1 := ⟨settings.maxDeletesPerRun.toNat - 1,by omega⟩
  refine ⟨first,?_⟩
  rw [toDelete,places,limit,List.take_succ_cons]
  exact List.mem_cons_self

private theorem mem_orphanPlaces {place : Place} : place ∈ orphanPlaces desired isProtected clusters ↔
    (clusters.get place).isSome ∧ orphan desired isProtected place = true := by
  rw [orphanPlaces,Finset.mem_filter,clusters.mem_keys]

variable (tasks clusters isProtected) in
/-- The orphans of the next round are among those of this one. -/
theorem orphanPlaces_round (distinct : (desired.map (·.name)).Nodup) (deletes : settings.deleteOrphans = true) :
    orphanPlaces desired isProtected (round tasks settings desired isProtected clusters) ⊆
      orphanPlaces desired isProtected clusters := by
  intro place inside
  obtain ⟨there,is⟩ := mem_orphanPlaces.mp inside
  rw [round_other distinct deletes (orphan_iff.mp is).2.1] at there
  split at there
  · cases there
  · exact mem_orphanPlaces.mpr ⟨there,is⟩

private theorem rank_round (distinct : (desired.map (·.name)).Nodup) (unnamed : ∀ d ∈ desired, d.config.get "name" = none)
    (deletes : settings.deleteOrphans = true) (creating : 1 ≤ settings.maxCreatesPerRun)
    (deleting : 1 ≤ settings.maxDeletesPerRun) (restless : ¬ Quiet desired isProtected clusters) :
    rank tasks desired isProtected (round tasks settings desired isProtected clusters) <
      rank tasks desired isProtected clusters := by
  have near : ∀ d ∈ desired, distance tasks d ((round tasks settings desired isProtected clusters).get d.place) ≤
      distance tasks d (clusters.get d.place) :=
    fun d member => (distance_round distinct deletes member (unnamed d member)).1
  have fewer := Finset.card_le_card (orphanPlaces_round tasks isProtected clusters distinct deletes)
  -- it is enough that one desired connector comes nearer
  have nearer : ∀ d ∈ desired, distance tasks d ((round tasks settings desired isProtected clusters).get d.place) <
      distance tasks d (clusters.get d.place) → rank tasks desired isProtected
      (round tasks settings desired isProtected clusters) < rank tasks desired isProtected clusters :=
    fun d member less => Nat.add_lt_add_of_lt_of_le (List.sum_lt_sum _ _ near ⟨d,member,less⟩) fewer
  by_cases calm : ∀ d ∈ desired, ∃ c, clusters.get d.place = some c ∧ Settled d (observe c)
  · obtain ⟨place,there,is⟩ : ∃ place, (clusters.get place).isSome ∧ orphan desired isProtected place = true := by
      by_contra none_left
      refine restless ⟨calm,fun place there => ?_⟩
      by_contra is
      exact none_left ⟨place,there,by simpa using is⟩
    obtain ⟨gone,picked⟩ := some_deleted deleting (observeAll clusters) (by simpa using there) is
    obtain ⟨was,is'⟩ := mem_orphans.mp (List.mem_of_mem_take picked)
    have strictly : orphanPlaces desired isProtected (round tasks settings desired isProtected clusters) ⊂
        orphanPlaces desired isProtected clusters := by
      refine Finset.ssubset_iff_of_subset (orphanPlaces_round tasks isProtected clusters distinct deletes) |>.mpr ⟨gone,?_,?_⟩
      · exact mem_orphanPlaces.mpr ⟨by simpa using was,is'⟩
      · rw [mem_orphanPlaces,round_other distinct deletes (orphan_iff.mp is').2.1,if_pos picked]
        simp
    exact Nat.add_lt_add_of_le_of_lt (List.sum_le_sum near) (Finset.card_lt_card strictly)
  · push Not at calm
    obtain ⟨d,member,unsettled⟩ := calm
    cases there : clusters.get d.place with
    | some c =>
      exact nearer d member ((distance_round distinct deletes member (unnamed d member)).2 c there (unsettled c there))
    | none =>
      obtain ⟨d',member',absent,picked⟩ := some_created creating (observeAll clusters) member (by simp [there])
      have absent' : clusters.get d'.place = none := by simpa using absent
      obtain ⟨c,performed,settled⟩ := created_settled tasks (unnamed d' member')
      refine nearer d' member' ?_
      rw [round_desired distinct deletes member',work,absent,absent']
      simp only [picked,if_true,performed]
      simp [distance,settled_iff.mpr settled]

end

/-- One plan is safe in every observed state, and planning and executing comes to an end from
    every state of the clusters. -/
theorem reconciler_safe_and_converges (tasks : Place → Config → Nat) (settings : CdcSettings)
    (desired : List DesiredConnector) (isProtected : String → Bool) (distinct : (desired.map (·.name)).Nodup)
    (unnamed : ∀ d ∈ desired, d.config.get "name" = none) (deletes : settings.deleteOrphans = true)
    (creating : 1 ≤ settings.maxCreatesPerRun) (deleting : 1 ≤ settings.maxDeletesPerRun) :
    (∀ observed : Observed, Safe settings desired observed isProtected
      (planActions settings desired observed isProtected).1 (planActions settings desired observed isProtected).2) ∧
    ∀ clusters : Clusters, ∃ n, planActions settings desired
      (observeAll ((round tasks settings desired isProtected)^[n] clusters)) isProtected = ([],[]) := by
  refine ⟨fun observed => plan_safe distinct deletes creating deleting,fun clusters => ?_⟩
  obtain ⟨n,quiet⟩ := finishes (Quiet desired isProtected) (rank tasks desired isProtected)
    (fun clusters restless => rank_round distinct unnamed deletes creating deleting restless) clusters
  exact ⟨n,plan_quiet distinct deletes quiet⟩

def oneByOne : CdcSettings := ⟨1,1,true⟩

def prefixConfig (source : String) : Config := Relation.tabulate {"topic.prefix"} (fun _ => some source)

def twoSources : List DesiredConnector :=
  [⟨"fbi-src-branch-001-g0","default",prefixConfig "branch-001",false⟩,
    ⟨"fbi-src-branch-002-g0","default",prefixConfig "branch-002",true⟩]

/-- A connector of an earlier generation, of which a task has failed. -/
def leftBehind : Clusters := Relation.tabulate {toLex ("default","fbi-src-branch-001-g9")}
  (fun _ => some ⟨prefixConfig "branch-001",.RUNNING,"RUNNING",["FAILED"]⟩)

theorem reconciler_safe_and_converges_two :
    Safe oneByOne twoSources (observeAll leftBehind) (fun _ => false)
      (planActions oneByOne twoSources (observeAll leftBehind) (fun _ => false)).1
      (planActions oneByOne twoSources (observeAll leftBehind) (fun _ => false)).2 ∧
    ∃ n, planActions oneByOne twoSources
      (observeAll ((round (fun _ _ => 1) oneByOne twoSources (fun _ => false))^[n] leftBehind)) (fun _ => false) =
        ([],[]) := by
  have result := reconciler_safe_and_converges (fun _ _ => 1) oneByOne twoSources (fun _ => false) (by decide)
    (by decide) rfl (by decide) (by decide)
  exact ⟨result.1 _,result.2 leftBehind⟩

end FineractBi.Reconciler

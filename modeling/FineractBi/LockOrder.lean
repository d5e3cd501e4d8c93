import Mathlib.Data.Prod.Lex
import Mathlib.Data.String.Basic
import FineractBi.Lib.Locking
import FineractBi.SinkWorker
import FineractBi.WriteFence

/-!
The order of the ownership locks. The control plane takes the exclusive locks of
one source table by table; a sink write takes the shared locks of its skipped
pairs by key and then, table by table, those of its written pairs by key. The
second order agrees with the first, the order of the keys does not.
-/
namespace FineractBi.LockOrder
open Runs Locking FineractBi.StateMachine FineractBi.Routing
open FineractBi.SinkWorker (RoutedEvent)
open FineractBi.WriteFence (Pair contractTables)
universe u

/-- The pairs that `verifySkips` locks. -/
def skippedPairs (skips : List SkipCheck) : List Pair :=
  (distinctSkips skips).map (fun entry => (entry.2.sourceId,entry.2.table))

def writtenPairs (events : List RoutedEvent) : List Pair := events.map (fun e => (e.event.sourceId,e.event.table))

/-- A transaction that takes ownership locks. `apply` commits table by table on a cutover, so
    one call is several transactions; `part` says which. -/
inductive Transaction
  | write (events : List RoutedEvent) (skips : List SkipCheck)
  | apply (action : Action) (source : String) (tables : List String) (part : Nat)
  | retire (source : String)

section
variable {Key : Type u} [LinearOrder Key] (ownershipLockKey : String → String → Key)

def lockKey (pair : Pair) : Key := ownershipLockKey pair.1 pair.2

def verifySkipsLocks (skips : List SkipCheck) : List (Request Key) :=
  (sortedSet ((skippedPairs skips).map (lockKey ownershipLockKey))).map (fun k => ⟨k,.shared⟩)

/-- The locks of `meta.apply_staged_batch` for the staged events of one table. -/
def applyStagedBatchLocks (events : List RoutedEvent) (table : String) : List (Request Key) :=
  (sortedSet (((writtenPairs events).filter (fun pair => pair.2 = table)).map (lockKey ownershipLockKey))).map
    (fun k => ⟨k,.shared⟩)

/-- `WarehouseWriter.write`. -/
def writeLocks (events : List RoutedEvent) (skips : List SkipCheck) : List (Request Key) :=
  verifySkipsLocks ownershipLockKey skips ++
    (sortedSet ((writtenPairs events).map (·.2))).flatMap (applyStagedBatchLocks ownershipLockKey events)

/-- `meta.lock_ownership_exclusive`. -/
def lockOwnershipExclusive (source table : String) : Request Key := ⟨ownershipLockKey source table,.exclusive⟩

/-- The transactions of `OwnershipRepository.apply`. -/
def applyLocks (action : Action) (source : String) (tables : List String) : List (List (Request Key)) :=
  if action = .CUTOVER then (sortedSet tables).map (fun table => [lockOwnershipExclusive ownershipLockKey source table])
  else [(sortedSet tables).map (lockOwnershipExclusive ownershipLockKey source)]

def retireLocks (source : String) : List (Request Key) :=
  (sortedSet contractTables).map (lockOwnershipExclusive ownershipLockKey source)

def program : Transaction → List (Request Key)
  | .write events skips => writeLocks ownershipLockKey events skips
  | .apply action source tables part => (applyLocks ownershipLockKey action source tables).getD part []
  | .retire source => retireLocks ownershipLockKey source

/-- The skipped pairs in the order of their keys are in the order of their tables, and no
    written pair that is not skipped too has an earlier table than a skipped one. -/
def InTableOrder : Transaction → Prop
  | .write events skips =>
      (∀ p ∈ skippedPairs skips, ∀ q ∈ skippedPairs skips,
        lockKey ownershipLockKey p < lockKey ownershipLockKey q → p.2 ≤ q.2) ∧
      ∀ p ∈ skippedPairs skips, ∀ q ∈ writtenPairs events, q ∉ skippedPairs skips → p.2 ≤ q.2
  | _ => True

variable {ownershipLockKey}

def Transaction.isWrite : Transaction → Bool
  | .write _ _ => true
  | _ => false

variable (ownershipLockKey) in
/-- A control-plane transaction takes the exclusive locks of one source in the order of the tables. -/
theorem control_program {tx : Transaction} (control : tx.isWrite = false) :
    ∃ (source : String) (tables : List String), program ownershipLockKey tx = tables.map (lockOwnershipExclusive ownershipLockKey source) ∧
      tables.Pairwise (· < ·) := by
  cases tx with
  | write events skips => cases control
  | apply action source tables part =>
    simp only [program,applyLocks]
    split
    · rcases Nat.lt_or_ge part (sortedSet tables).length with inside | outside
      · exact ⟨source,[(sortedSet tables).get ⟨part,inside⟩],by simp [List.getD,inside],List.pairwise_singleton _ _⟩
      · exact ⟨source,[],by simp [List.getD,outside],List.Pairwise.nil⟩
    · cases part with
      | zero => exact ⟨source,sortedSet tables,rfl,sortedSet_ascending tables⟩
      | succ n => exact ⟨source,[],by simp,List.Pairwise.nil⟩
  | retire source => exact ⟨source,sortedSet contractTables,rfl,sortedSet_ascending contractTables⟩

/-- A sink write asks for shared locks only, the control plane for exclusive ones only. -/
theorem mode_program {tx : Transaction} {r : Request Key} (asked : r ∈ program ownershipLockKey tx) :
    r.mode = if tx.isWrite then .shared else .exclusive := by
  cases write : tx.isWrite with
  | false =>
    obtain ⟨source,tables,locks,-⟩ := control_program ownershipLockKey write
    obtain ⟨table,-,rfl⟩ := List.mem_map.mp (locks ▸ asked)
    rfl
  | true =>
    cases tx with
    | write events skips =>
      rcases List.mem_append.mp asked with skip | write
      · obtain ⟨k,-,rfl⟩ := List.mem_map.mp skip
        rfl
      · obtain ⟨table,-,there⟩ := List.mem_flatMap.mp write
        obtain ⟨k,-,rfl⟩ := List.mem_map.mp there
        rfl
    | _ => cases write

/-- The table whose lock a key is. -/
noncomputable def tableOf (ownershipLockKey : String → String → Key) (k : Key) : String :=
  (Function.invFun (lockKey ownershipLockKey) k).2

omit [LinearOrder Key] in
theorem tableOf_lockKey (distinct : Function.Injective2 ownershipLockKey) (pair : Pair) :
    tableOf ownershipLockKey (lockKey ownershipLockKey pair) = pair.2 := by
  have injective : Function.Injective (lockKey ownershipLockKey) := distinct.uncurry
  rw [tableOf,Function.leftInverse_invFun injective pair]

private theorem mem_verifySkipsLocks {skips : List SkipCheck} {r : Request Key} :
    r ∈ verifySkipsLocks ownershipLockKey skips ↔
      ∃ pair ∈ skippedPairs skips, r = ⟨lockKey ownershipLockKey pair,.shared⟩ := by
  simp only [verifySkipsLocks,List.mem_map,mem_sortedSet]
  constructor
  · rintro ⟨k,⟨pair,there,rfl⟩,rfl⟩
    exact ⟨pair,there,rfl⟩
  · rintro ⟨pair,there,rfl⟩
    exact ⟨_,⟨pair,there,rfl⟩,rfl⟩

private theorem mem_applyStagedBatchLocks {events : List RoutedEvent} {table : String} {r : Request Key} :
    r ∈ applyStagedBatchLocks ownershipLockKey events table ↔
      ∃ pair ∈ writtenPairs events, pair.2 = table ∧ r = ⟨lockKey ownershipLockKey pair,.shared⟩ := by
  simp only [applyStagedBatchLocks,List.mem_map,mem_sortedSet,List.mem_filter,decide_eq_true_eq]
  constructor
  · rintro ⟨k,⟨pair,⟨there,same⟩,rfl⟩,rfl⟩
    exact ⟨pair,there,same,rfl⟩
  · rintro ⟨pair,there,same,rfl⟩
    exact ⟨_,⟨pair,⟨there,same⟩,rfl⟩,rfl⟩

/-- The locks of `verifySkips` are in table order where the order of the keys is. -/
theorem verifySkipsLocks_ascending (distinct : Function.Injective2 ownershipLockKey) {skips : List SkipCheck}
    (agree : ∀ p ∈ skippedPairs skips, ∀ q ∈ skippedPairs skips,
      lockKey ownershipLockKey p < lockKey ownershipLockKey q → p.2 ≤ q.2) :
    (verifySkipsLocks ownershipLockKey skips).Pairwise
      (fun a b => tableOf ownershipLockKey a.key ≤ tableOf ownershipLockKey b.key) := by
  rw [verifySkipsLocks,List.pairwise_map]
  refine (sortedSet_ascending _).imp_of_mem ?_
  intro k l first second below
  obtain ⟨p,hp,rfl⟩ := List.mem_map.mp (mem_sortedSet.mp first)
  obtain ⟨q,hq,rfl⟩ := List.mem_map.mp (mem_sortedSet.mp second)
  rw [tableOf_lockKey distinct,tableOf_lockKey distinct]
  exact agree p hp q hq below

/-- The locks of the staged batches are in table order. -/
theorem stagedLocks_ascending (distinct : Function.Injective2 ownershipLockKey) (events : List RoutedEvent) :
    ((sortedSet ((writtenPairs events).map (·.2))).flatMap (applyStagedBatchLocks ownershipLockKey events)).Pairwise
      (fun a b => tableOf ownershipLockKey a.key ≤ tableOf ownershipLockKey b.key) := by
  have table : ∀ t, ∀ r ∈ applyStagedBatchLocks ownershipLockKey events t, tableOf ownershipLockKey r.key = t := by
    intro t r there
    obtain ⟨pair,-,rfl,rfl⟩ := mem_applyStagedBatchLocks.mp there
    exact tableOf_lockKey distinct pair
  rw [List.pairwise_flatMap]
  constructor
  · intro t _
    refine List.pairwise_of_forall_mem_list ?_
    intro a ha b hb
    rw [table t a ha,table t b hb]
  · refine (sortedSet_ascending _).imp ?_
    intro t t' below a ha b hb
    rw [table t a ha,table t' b hb]
    exact below.le

/-- A sink write in table order asks for no new lock of an earlier table than one it holds. -/
theorem write_ascending (distinct : Function.Injective2 ownershipLockKey) {tx : Transaction}
    (ordered : InTableOrder ownershipLockKey tx) (write : tx.isWrite = true) {held rest : List (Request Key)}
    {r : Request Key} (split : held ++ r :: rest = program ownershipLockKey tx) (new : r ∉ held) :
    ∀ a ∈ held, tableOf ownershipLockKey a.key ≤ tableOf ownershipLockKey r.key := by
  cases tx with
  | write events skips =>
    refine first_above (verifySkipsLocks_ascending distinct ordered.1) (stagedLocks_ascending distinct events) ?_
      split.symm new
    intro a ha b hb missing
    obtain ⟨p,hp,rfl⟩ := mem_verifySkipsLocks.mp ha
    obtain ⟨table,-,there⟩ := List.mem_flatMap.mp hb
    obtain ⟨q,hq,rfl,rfl⟩ := mem_applyStagedBatchLocks.mp there
    rw [tableOf_lockKey distinct,tableOf_lockKey distinct]
    exact ordered.2 p hp q hq (fun skipped => missing (mem_verifySkipsLocks.mpr ⟨q,skipped,rfl⟩))
  | _ => cases write

/-- The control plane asks for no lock of an earlier table than one it holds, nor of the same. -/
theorem control_ascending (distinct : Function.Injective2 ownershipLockKey) {tx : Transaction}
    (control : tx.isWrite = false) {held rest : List (Request Key)} {r : Request Key}
    (split : held ++ r :: rest = program ownershipLockKey tx) :
    ∀ a ∈ held, tableOf ownershipLockKey a.key < tableOf ownershipLockKey r.key := by
  obtain ⟨source,tables,locks,ascending⟩ := control_program ownershipLockKey control
  have pairwise : (program ownershipLockKey tx).Pairwise
      (fun a b => tableOf ownershipLockKey a.key < tableOf ownershipLockKey b.key) := by
    rw [locks,List.pairwise_map]
    refine ascending.imp ?_
    intro t t' below
    have table := tableOf_lockKey distinct (source,t)
    have table' := tableOf_lockKey distinct (source,t')
    simp only [lockKey] at table table'
    simpa [lockOwnershipExclusive,table,table'] using below
  rw [← split] at pairwise
  exact fun a ha => (List.pairwise_append.mp pairwise).2.2 a ha r (by simp)

/-- Where a waiting transaction stands: at the table it waits for, a sink write behind the
    control-plane transactions that wait for the same table. -/
noncomputable def waitRank (ownershipLockKey : String → String → Key) (s : State Transaction Key) (i : Nat) :
    String ×ₗ Bool :=
  match s i with
  | none => toLex ("",false)
  | some t => toLex (((t.wanted.head?.map (fun r => tableOf ownershipLockKey r.key)).getD ""),t.owner.isWrite)

private theorem waitRank_grows (distinct : Function.Injective2 ownershipLockKey) {s : State Transaction Key}
    (sound : Sound (program ownershipLockKey) s) (ordered : ∀ id t, s id = some t → InTableOrder ownershipLockKey t.owner)
    {i j k : Nat} (waits : WaitsFor s i j) (next : WaitsFor s j k) :
    waitRank ownershipLockKey s i < waitRank ownershipLockKey s j := by
  obtain ⟨t,r,rest,here,asked,-,u,there,h,hh,key,conflict⟩ := waits
  obtain ⟨u',r',rest',there',asked',blocks⟩ := next
  obtain rfl : u = u' := Option.some.inj (there.symm.trans there')
  have split : u.held ++ r' :: rest' = program ownershipLockKey u.owner := asked' ▸ sound.followed j u there
  simp only [waitRank,here,there,asked,asked',List.head?_cons,Option.map_some,Option.getD_some,Prod.Lex.toLex_lt_toLex]
  rw [← key]
  cases write : u.owner.isWrite with
  | false => exact .inl (control_ascending distinct write split h hh)
  | true =>
    have below := write_ascending distinct (ordered j u there) write split (sound.waits_new there blocks) h hh
    -- a shared lock keeps only the control plane waiting
    have mine : r ∈ program ownershipLockKey t.owner := by
      rw [← sound.followed i t here,asked]
      simp
    have held : h ∈ program ownershipLockKey u.owner := by
      rw [← sound.followed j u there]
      exact List.mem_append_left _ hh
    have control : t.owner.isWrite = false := by
      cases other : t.owner.isWrite with
      | false => rfl
      | true =>
        rw [mode_program mine,mode_program held,write,other] at conflict
        cases conflict
    rcases lt_or_eq_of_le below with less | same
    · exact .inl less
    · exact .inr ⟨same,by simp [control]⟩

end

/-- Sink writes in table order and the control plane never wait for one another in a circle. -/
theorem ownership_locks_no_deadlock {Key : Type u} [LinearOrder Key] (ownershipLockKey : String → String → Key)
    (distinct : Function.Injective2 ownershipLockKey) (trace : List (Event Transaction))
    (s : State Transaction Key) (run : Run (Step (program ownershipLockKey)) idle trace s)
    (ordered : ∀ id tx, Event.begin id tx ∈ trace → InTableOrder ownershipLockKey tx) : ¬ Deadlock s := by
  have sound := sound_run run
  have known : ∀ id t, s id = some t → InTableOrder ownershipLockKey t.owner :=
    fun id t running => ordered id t.owner (begun_run run id t running)
  exact no_deadlock_of_rank (waitRank ownershipLockKey s)
    (fun _ _ _ waits next => waitRank_grows distinct sound known waits next)

/-- A key for each pair. -/
def pairKey (source table : String) : String ×ₗ String := toLex (source,table)

private theorem pairKey_distinct : Function.Injective2 pairKey := by
  intro source source' table table' same
  simpa [pairKey] using same

def clientEvent (table : String) : RoutedEvent where
  record := ⟨"fineract.cdc." ++ table,0,7,none⟩
  event := ⟨"branch-001",table,.DELETE,[some "7"],[],some 900,1000,[]⟩
  route := ⟨.PROD,3,some "default",0,none⟩

/-- A batch with an event of a table that the sink owns and one of a table that it does not. -/
def mixedWrite (written skipped : String) : Transaction := .write [clientEvent written] [⟨"branch-001",skipped,2⟩]

def pauseBoth : Transaction := .apply .PAUSE "branch-001" ["m_loan","m_client"] 0

def clientLock (mode : Mode) : Request (String ×ₗ String) := ⟨pairKey "branch-001" "m_client",mode⟩
def loanLock (mode : Mode) : Request (String ×ₗ String) := ⟨pairKey "branch-001" "m_loan",mode⟩

private theorem program_mixedWrite : program pairKey (mixedWrite "m_client" "m_loan") = [loanLock .shared,clientLock .shared] := by
  decide +kernel

private theorem program_mixedWrite_ordered :
    program pairKey (mixedWrite "m_loan" "m_client") = [clientLock .shared,loanLock .shared] := by
  decide +kernel

private theorem program_pauseBoth : program pairKey pauseBoth = [clientLock .exclusive,loanLock .exclusive] := by
  decide +kernel

/-- A lone transaction with its first lock. -/
theorem first_lock {tx : Transaction} {r : Request (String ×ₗ String)} {rest : List (Request (String ×ₗ String))}
    (locks : program pairKey tx = r :: rest) :
    Run (Step (program pairKey)) idle [.begin 0 tx,.acquire 0]
      (Function.update idle 0 (some ⟨tx,[r],rest⟩)) := by
  have begun : Run (Step (program pairKey)) idle [.begin 0 tx] _ := Run.start.extend (.begin tx rfl)
  have alone : ∀ other, ¬ Blocks (Function.update idle 0 (some ⟨tx,[],program pairKey tx⟩)) 0 r other := by
    rintro other ⟨apart,u,there,-⟩
    simp [Function.update_of_ne apart,idle] at there
  simpa [Function.update_idem] using begun.extend (.acquire (Function.update_self ..) locks alone)

/-- Both transactions with their first lock and before their second. -/
def crossed : State Transaction (String ×ₗ String) :=
  Function.update (Function.update idle 0
    (some ⟨mixedWrite "m_client" "m_loan",[loanLock .shared],[clientLock .shared]⟩)) 1
    (some ⟨pauseBoth,[clientLock .exclusive],[loanLock .exclusive]⟩)

private theorem crossed_run : Run (Step (program pairKey)) idle
    [.begin 0 (mixedWrite "m_client" "m_loan"),.acquire 0,.begin 1 pauseBoth,.acquire 1] crossed := by
  have free : Function.update idle 0
      (some ⟨mixedWrite "m_client" "m_loan",[loanLock .shared],[clientLock .shared]⟩) 1 = none := rfl
  have begun := (first_lock program_mixedWrite).extend (.begin pauseBoth free)
  rw [program_pauseBoth] at begun
  have unblocked : ∀ other, ¬ Blocks (Function.update (Function.update idle 0
      (some ⟨mixedWrite "m_client" "m_loan",[loanLock .shared],[clientLock .shared]⟩)) 1
      (some ⟨pauseBoth,[],[clientLock .exclusive,loanLock .exclusive]⟩)) 1 (clientLock .exclusive) other := by
    rintro other ⟨apart,u,there,h,hh,key,-⟩
    by_cases zero : other = 0
    · subst zero
      obtain rfl : _ = u := by simpa using there
      obtain rfl : h = loanLock .shared := by simpa using hh
      exact absurd key (by decide +kernel)
    · simp [Function.update_of_ne apart,Function.update_of_ne zero,idle] at there
  simpa [Function.update_idem,crossed] using begun.extend (.acquire (Function.update_self ..) rfl unblocked)

/-- A write that skips `m_loan` and writes `m_client`, and a pause of both tables. -/
theorem skipped_lock_deadlock :
    Function.Injective2 pairKey ∧
    Run (Step (program pairKey)) idle
      [.begin 0 (mixedWrite "m_client" "m_loan"),.acquire 0,.begin 1 pauseBoth,.acquire 1] crossed ∧
    Deadlock crossed := by
  refine ⟨pairKey_distinct,crossed_run,0,?_⟩
  have sink : WaitsFor crossed 0 1 :=
    ⟨_,clientLock .shared,[],rfl,rfl,by decide,_,rfl,clientLock .exclusive,by simp,rfl,rfl⟩
  have control : WaitsFor crossed 1 0 :=
    ⟨_,loanLock .exclusive,[],rfl,rfl,by decide,_,rfl,loanLock .shared,by simp,rfl,rfl⟩
  exact .tail (.single sink) control

def pauseLoan : Transaction := .apply .PAUSE "branch-001" ["m_loan"] 0

private theorem program_pauseLoan : program pairKey pauseLoan = [loanLock .exclusive] := by decide +kernel

/-- A write in table order with its first lock, a pause of the table of its second one, and a pause
    of both tables that has no lock yet. -/
def queued : State Transaction (String ×ₗ String) :=
  Function.update (Function.update (Function.update idle 0
    (some ⟨mixedWrite "m_loan" "m_client",[clientLock .shared],[loanLock .shared]⟩)) 1
    (some ⟨pauseLoan,[loanLock .exclusive],[]⟩)) 2
    (some ⟨pauseBoth,[],[clientLock .exclusive,loanLock .exclusive]⟩)

private theorem queued_run : Run (Step (program pairKey)) idle
    [.begin 0 (mixedWrite "m_loan" "m_client"),.acquire 0,.begin 1 pauseLoan,.acquire 1,.begin 2 pauseBoth] queued := by
  have first := first_lock program_mixedWrite_ordered
  have begun := first.extend (@Step.begin _ _ (program pairKey) _ 1 pauseLoan rfl)
  rw [program_pauseLoan] at begun
  have unblocked : ∀ other, ¬ Blocks (Function.update (Function.update idle 0
      (some ⟨mixedWrite "m_loan" "m_client",[clientLock .shared],[loanLock .shared]⟩)) 1
      (some ⟨pauseLoan,[],[loanLock .exclusive]⟩)) 1 (loanLock .exclusive) other := by
    rintro other ⟨apart,u,there,h,hh,key,-⟩
    by_cases zero : other = 0
    · subst zero
      obtain rfl : _ = u := by simpa using there
      obtain rfl : h = clientLock .shared := by simpa using hh
      exact absurd key (by decide +kernel)
    · simp [Function.update_of_ne apart,Function.update_of_ne zero,idle] at there
  have locked := begun.extend (.acquire (Function.update_self ..) rfl unblocked)
  rw [Function.update_idem] at locked
  have waiting := locked.extend (@Step.begin _ _ (program pairKey) _ 2 pauseBoth rfl)
  rw [program_pauseBoth] at waiting
  exact waiting

/-- The pause of both tables waits for the write, and the write for the other pause. -/
theorem ownership_locks_no_deadlock_queued : WaitsFor queued 2 0 ∧ WaitsFor queued 0 1 ∧ ¬ Deadlock queued := by
  refine ⟨?_,?_,?_⟩
  · exact ⟨_,clientLock .exclusive,_,rfl,rfl,by decide,_,rfl,clientLock .shared,by simp,rfl,rfl⟩
  · exact ⟨_,loanLock .shared,_,rfl,rfl,by decide,_,rfl,loanLock .exclusive,by simp,rfl,rfl⟩
  · refine ownership_locks_no_deadlock pairKey pairKey_distinct _ _ queued_run ?_
    intro id tx begun
    have known : tx = mixedWrite "m_loan" "m_client" ∨ tx = pauseLoan ∨ tx = pauseBoth := by
      have listed : id = 0 ∧ tx = mixedWrite "m_loan" "m_client" ∨ id = 1 ∧ tx = pauseLoan ∨ id = 2 ∧ tx = pauseBoth := by
        simpa using begun
      exact listed.imp And.right (fun later => later.imp And.right And.right)
    rcases known with rfl | rfl | rfl
    · refine ⟨?_,?_⟩ <;> decide +kernel
    · trivial
    · trivial

end FineractBi.LockOrder

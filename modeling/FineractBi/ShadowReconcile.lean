import FineractBi.Lib.Query
import FineractBi.ApplyBatch
import FineractBi.CutoverGuard
import FineractBi.FineractTables

/-!
`meta.reconcile_shadow`: the live rows of a source in `raw` and `raw_shadow` are
full joined and the keys counted whose values differ or that one side lacks. The
tombstones are gone before the join, so the settle window does not see that a
row was deleted on one side: the deletion counts before it has settled.
-/
namespace FineractBi.ShadowReconcile
open Query FineractBi.Contract FineractBi.CutoverGuard
open FineractBi.ApplyBatch (Key)
open FineractBi.FineractTables (TypedTable)
open FineractBi.WriteFence (Pair)

/-- A row of a raw table without its key, its timestamps nullable. -/
structure StoredRow where
  values : Column → Option Value
  sourceTs : Option Int
  ingestedAt : Option Int
  isDeleted : Bool

/-- A raw table, with the rows of all sources. -/
abbrev Content := Relation Key StoredRow

/-- The functions of the database that the comparison calls. -/
structure Functions where
  rowText : List (Option Value) → String
  md5 : String → String
  limit20 : Multiset (Option Int) → List (Option Int)

/-- The values that are compared: not synthetic, not PII. -/
def comparable (t : TypedTable) (row : StoredRow) : List (Option Value) :=
  (t.columns.filter (fun c => !c.synthetic && !c.pii)).map (fun c => row.values c.name)

/-- `greatest`, which ignores NULL. -/
def greatest (times : List (Option Int)) : Option Int := (times.filterMap id).max?

/-- `… < cutoff`, not true of NULL. -/
def before (cutoff : Int) (time : Option Int) : Bool := time.any (· < cutoff)

/-- The live rows of a source. -/
def live (source : String) (c : Content) : Content :=
  c.filterMap (fun k row => if k.sourceId = source ∧ row.isDeleted = false then some row else none)

/-- The row of a key on either side, NULLs where there is none. -/
abbrev Joined := Option (Key × StoredRow) × Option (Key × StoredRow)

def onKeys (p s : Key × StoredRow) : Bool := p.1.tenantId = s.1.tenantId && p.1.id = s.1.id

/-- What the settle filter compares. -/
def lastChange (r : Joined) : Option Int :=
  greatest [r.1.bind (·.2.ingestedAt),r.2.bind (·.2.ingestedAt),r.1.bind (·.2.sourceTs),r.2.bind (·.2.sourceTs)]

def fingerprint (f : Functions) (t : TypedTable) (row : Option (Key × StoredRow)) : String :=
  f.md5 (f.rowText (match row with
    | none => (t.columns.filter (fun c => !c.synthetic && !c.pii)).map (fun _ => none)
    | some r => comparable t r.2))

/-- A row of `j`. -/
structure JoinedRow where
  k : Option Int
  missingP : Bool
  missingS : Bool
  differs : Bool

def selectJoined (f : Functions) (t : TypedTable) (r : Joined) : JoinedRow where
  k := (r.1.or r.2).map (·.1.id)
  missingP := r.1.isNone
  missingS := r.2.isNone
  differs := fingerprint f t r.1 ≠ fingerprint f t r.2

/-- The row that `meta.reconcile_shadow` returns. -/
structure Counts where
  comparedRows : Nat
  mismatchedRows : Nat
  missingInProd : Nat
  missingInShadow : Nat
  sampleKeys : List (Option Int)
  deriving DecidableEq

section
variable (f : Functions) (t : TypedTable) (source : String) (prod shadow : Content) (cutoff : Int)

/-- The rows of `j`. -/
def joinedRows : Multiset JoinedRow :=
  ((fullJoin onKeys (live source prod).rows (live source shadow).rows).filter (fun r => before cutoff (lastChange r))).map
    (selectJoined f t)

/-- `meta.reconcile_shadow`, the cutoff being NOW() less the settle window. -/
def reconcileShadow : Counts :=
  let j := joinedRows f t source prod shadow cutoff
  { comparedRows := j.card
    mismatchedRows := (j.filter (fun r => r.differs && !r.missingP && !r.missingS)).card
    missingInProd := (j.filter (fun r => r.missingP)).card
    missingInShadow := (j.filter (fun r => r.missingS)).card
    sampleKeys := f.limit20 ((j.filter (fun r => r.differs)).map (·.k)) }

end

/-- The row that `meta.run_shadow_reconciliation` returns. -/
structure ShadowResult extends Counts where
  reconciliationId : Int
  passed : Bool
  settleSeconds : Int

/-- `least(greatest(coalesce(p_settle_seconds, 0), 0), …)`. -/
def settleSeconds (maxSettleSeconds : Int) (requested : Option Int) : Int := min (max (requested.getD 0) 0) maxSettleSeconds

/-- What the function reads beside its arguments: the contract, the contents of the tables and its setting. -/
structure Reads where
  tableContract : String → Option TypedTable
  prod : String → Content
  shadow : String → Content
  maxSettleSeconds : Int

/-- `meta.run_shadow_reconciliation`: the row that it returns, and the database with the run that it records. -/
def runShadowReconciliation (f : Functions) (reads : Reads) (platform : Platform) (session : Session) (db : Database)
    (pair : Pair) (requested : Option Int) : Except String (ShadowResult × Database) :=
  match reads.tableContract pair.2 with
  | none => .error ("Unknown contract table " ++ pair.2)
  | some t =>
    let settle := settleSeconds reads.maxSettleSeconds requested
    let counts := reconcileShadow f t pair.1 (reads.prod pair.2) (reads.shadow pair.2) (session.now - settle * 1000000)
    let total : Int := counts.mismatchedRows + counts.missingInProd + counts.missingInShadow
    .ok ({ counts with
           reconciliationId := db.runs.length + 1
           passed := total ≤ platform.reconciliationMaxDiscrepancies
           settleSeconds := settle },
      CutoverGuard.runShadowReconciliation platform session db pair counts.mismatchedRows counts.missingInProd
        counts.missingInShadow)

section
variable (t : TypedTable) (source : String) (prod shadow : Content) (cutoff : Int)

/-- The latest change of a key on either side, a tombstone being a change. -/
def latestChange (k : Key) : Option Int :=
  greatest [(prod.get k).bind (·.ingestedAt),(shadow.get k).bind (·.ingestedAt),(prod.get k).bind (·.sourceTs),
    (shadow.get k).bind (·.sourceTs)]

def Settled (k : Key) : Prop := before cutoff (latestChange prod shadow k) = true

instance (k : Key) : Decidable (Settled prod shadow cutoff k) := inferInstanceAs (Decidable (_ = _))

/-- The keys that are live on a side. -/
def liveKeys : Finset Key := (live source prod).keys ∪ (live source shadow).keys

/-- Both sides have live values, and they differ. -/
def valuesDiffer (k : Key) : Bool :=
  match (live source prod).get k,(live source shadow).get k with
  | some p,some s => comparable t p ≠ comparable t s
  | _,_ => false

/-- The settled keys of each kind of difference. -/
def mismatched : Finset Key := (liveKeys source prod shadow).filter (fun k =>
  Settled prod shadow cutoff k ∧ valuesDiffer t source prod shadow k)

def absentFrom (side : Content) : Finset Key := (liveKeys source prod shadow).filter (fun k =>
  Settled prod shadow cutoff k ∧ ((live source side).get k).isNone)

/-- The numbers are those of the settled differences. -/
structure CountsSettled (counts : Counts) : Prop where
  mismatchedRows : counts.mismatchedRows = (mismatched t source prod shadow cutoff).card
  missingInProd : counts.missingInProd = (absentFrom source prod shadow cutoff prod).card
  missingInShadow : counts.missingInShadow = (absentFrom source prod shadow cutoff shadow).card

/-- `md5` tells the compared rows of a key apart. -/
def TellsApart (f : Functions) : Prop :=
  ∀ k p s, (live source prod).get k = some p → (live source shadow).get k = some s →
    f.md5 (f.rowText (comparable t p)) = f.md5 (f.rowText (comparable t s)) → comparable t p = comparable t s

end

/-- The timestamps of a row. -/
def times (row : StoredRow) : List (Option Int) := [row.ingestedAt,row.sourceTs]

section
variable (source : String) (one other : Content) (cutoff : Int)

/-- The keys that are live on one side for longer than the window and were deleted on the other within it. -/
def deletedSince : Finset Key := (live source one).keys.filter (fun k =>
  ((live source other).get k).isNone ∧ ((one.get k).any (fun row => before cutoff (greatest (times row)))) ∧
    (other.get k).any (fun tomb => (times tomb).any (fun time => time.any (cutoff ≤ ·))))

/-- The keys whose live row on one side has no timestamp and that were deleted on the other before the window. -/
def untimed : Finset Key := (live source one).keys.filter (fun k =>
  ((live source other).get k).isNone ∧ ((one.get k).any (fun row => (times row).all (·.isNone))) ∧
    (other.get k).any (fun tomb => before cutoff (greatest (times tomb))))

end

section
variable {cutoff : Int} {a b : List (Option Int)}

/-- The greatest time is before the cutoff when some time is known and all known ones are. -/
theorem before_greatest : before cutoff (greatest a) = true ↔ (∃ x, some x ∈ a) ∧ ∀ x, some x ∈ a → x < cutoff := by
  have known (x : Int) : x ∈ a.filterMap id ↔ some x ∈ a := by simp
  cases top : (a.filterMap id).max? with
  | none =>
    have empty : a.filterMap id = [] := List.max?_eq_none_iff.mp top
    have none_known (x : Int) : some x ∉ a := fun inside => by
      have inside := (known x).mpr inside
      rw [empty] at inside
      exact List.not_mem_nil inside
    refine iff_of_false ?_ (fun early => early.1.elim none_known)
    rw [greatest,top]
    exact Bool.false_ne_true
  | some m =>
    obtain ⟨member,most⟩ := List.max?_eq_some_iff.mp top
    simp only [before,greatest,top,Option.any_some,decide_eq_true_eq,← known]
    exact ⟨fun early => ⟨⟨m,member⟩,fun x inside => lt_of_le_of_lt (most x inside) early⟩,fun early => early.2 m member⟩

private theorem before_congr (same : ∀ x, some x ∈ a ↔ some x ∈ b) :
    before cutoff (greatest a) = before cutoff (greatest b) := by
  rw [Bool.eq_iff_iff,before_greatest,before_greatest]
  simp only [same]

/-- Times that are settled alone and not with others: some of the others is late. -/
theorem settled_alone_iff : before cutoff (greatest a) = true ∧ ¬before cutoff (greatest (a ++ b)) = true ↔
    before cutoff (greatest a) = true ∧ ∃ x, some x ∈ b ∧ cutoff ≤ x := by
  refine and_congr_right (fun alone => ?_)
  obtain ⟨⟨x,inside⟩,early⟩ := before_greatest.mp alone
  rw [before_greatest]
  constructor
  · intro unsettled
    by_contra none_late
    push Not at none_late
    refine unsettled ⟨⟨x,List.mem_append_left _ inside⟩,fun y member => ?_⟩
    exact (List.mem_append.mp member).elim (early y) (none_late y)
  · rintro ⟨y,member,late⟩ settled
    exact absurd (settled.2 y (List.mem_append_right _ member)) (not_lt.mpr late)

/-- Times that are settled only with others: none of them is known. -/
theorem settled_together_iff : before cutoff (greatest (a ++ b)) = true ∧ ¬before cutoff (greatest a) = true ↔
    (∀ x, some x ∉ a) ∧ before cutoff (greatest b) = true := by
  rw [before_greatest,before_greatest,before_greatest]
  constructor
  · rintro ⟨⟨⟨x,inside⟩,early⟩,unsettled⟩
    have unknown : ∀ x, some x ∉ a := fun x known => unsettled ⟨⟨x,known⟩,fun y member => early y (List.mem_append_left _ member)⟩
    refine ⟨unknown,⟨x,?_⟩,fun y member => early y (List.mem_append_right _ member)⟩
    exact (List.mem_append.mp inside).resolve_left (unknown x)
  · rintro ⟨unknown,⟨x,inside⟩,early⟩
    refine ⟨⟨⟨x,List.mem_append_right _ inside⟩,fun y member => ?_⟩,fun settled => ?_⟩
    · exact early y ((List.mem_append.mp member).resolve_left (unknown y))
    · exact settled.1.elim unknown

end

section
variable {source : String} {c one other prod shadow : Content} {cutoff : Int} {k : Key}

private theorem live_eq_some {row : StoredRow} : (live source c).get k = some row ↔
    c.get k = some row ∧ k.sourceId = source ∧ row.isDeleted = false := by
  simp only [live,Relation.filterMap_get,Option.bind_eq_some_iff,Option.ite_none_right_eq_some,Option.some.injEq]
  constructor
  · rintro ⟨row,found,⟨own,lives⟩,rfl⟩
    exact ⟨found,own,lives⟩
  · rintro ⟨found,own,lives⟩
    exact ⟨row,found,⟨own,lives⟩,rfl⟩

/-- The timestamps of a key on a side. -/
def timesOf (c : Content) (k : Key) : List (Option Int) := [(c.get k).bind (·.ingestedAt),(c.get k).bind (·.sourceTs)]

/-- The keys that one side lacks, as the comparison counts them and as it should. -/
def lacking (source : String) (one other : Content) (cutoff : Int) : Finset Key := (live source one).keys.filter (fun k =>
  ((live source other).get k).isNone ∧ before cutoff (greatest (timesOf one k)))

def settledLacking (source : String) (one other : Content) (cutoff : Int) : Finset Key :=
  (live source one).keys.filter (fun k =>
    ((live source other).get k).isNone ∧ before cutoff (greatest (timesOf one k ++ timesOf other k)))

private theorem timesOf_row {row : StoredRow} (found : c.get k = some row) : timesOf c k = times row := by
  simp [timesOf,times,found]

private theorem lacking_sdiff : lacking source one other cutoff \ settledLacking source one other cutoff =
    deletedSince source one other cutoff := by
  ext k
  simp only [lacking,settledLacking,deletedSince,Finset.mem_sdiff,Finset.mem_filter,not_and]
  constructor
  · rintro ⟨⟨lives,absent,alone⟩,unsettled⟩
    obtain ⟨row,found⟩ := Option.isSome_iff_exists.mp ((Relation.mem_keys _ k).mp lives)
    have there := (live_eq_some.mp found).1
    obtain ⟨_,x,late,after⟩ := settled_alone_iff.mp ⟨alone,unsettled lives absent⟩
    refine ⟨lives,absent,by rw [timesOf_row there] at alone; simpa [there] using alone,?_⟩
    cases dead : other.get k with
    | none => simp [timesOf,dead] at late
    | some tomb =>
      rw [timesOf_row dead] at late
      exact List.any_eq_true.mpr ⟨some x,late,by simpa using after⟩
  · rintro ⟨lives,absent,alone,late⟩
    obtain ⟨row,there,alone⟩ := (Option.any_eq_true _ _).mp alone
    obtain ⟨tomb,dead,late⟩ := (Option.any_eq_true _ _).mp late
    obtain ⟨time,late,after⟩ := List.any_eq_true.mp late
    obtain ⟨x,rfl,after⟩ := (Option.any_eq_true _ _).mp after
    rw [← timesOf_row there] at alone
    rw [← timesOf_row dead] at late
    exact ⟨⟨lives,absent,alone⟩,fun _ _ => (settled_alone_iff.mpr ⟨alone,x,late,of_decide_eq_true after⟩).2⟩

private theorem settledLacking_sdiff : settledLacking source one other cutoff \ lacking source one other cutoff =
    untimed source one other cutoff := by
  ext k
  simp only [lacking,settledLacking,untimed,Finset.mem_sdiff,Finset.mem_filter,not_and]
  constructor
  · rintro ⟨⟨lives,absent,together⟩,unsettled⟩
    obtain ⟨row,found⟩ := Option.isSome_iff_exists.mp ((Relation.mem_keys _ k).mp lives)
    have there := (live_eq_some.mp found).1
    obtain ⟨unknown,late⟩ := settled_together_iff.mp ⟨together,unsettled lives absent⟩
    refine ⟨lives,absent,(Option.any_eq_true _ _).mpr ⟨row,there,?_⟩,?_⟩
    · rw [timesOf_row there] at unknown
      refine List.all_eq_true.mpr (fun time member => ?_)
      cases time with
      | none => rfl
      | some x => exact absurd member (unknown x)
    · cases dead : other.get k with
      | none => simp [timesOf,dead,before,greatest] at late
      | some tomb =>
        rw [timesOf_row dead] at late
        exact late
  · rintro ⟨lives,absent,unknown,late⟩
    obtain ⟨row,there,unknown⟩ := (Option.any_eq_true _ _).mp unknown
    obtain ⟨tomb,dead,late⟩ := (Option.any_eq_true _ _).mp late
    rw [← timesOf_row dead] at late
    have none_known : ∀ x, some x ∉ timesOf one k := by
      rw [timesOf_row there]
      exact fun x member => by simpa using List.all_eq_true.mp unknown _ member
    obtain ⟨together,unsettled⟩ := settled_together_iff.mpr ⟨none_known,late⟩
    exact ⟨⟨lives,absent,together⟩,fun _ _ => unsettled⟩

private theorem lacking_card_iff : (lacking source one other cutoff).card = (settledLacking source one other cutoff).card ↔
    (deletedSince source one other cutoff).card = (untimed source one other cutoff).card := by
  rw [← Finset.card_sdiff_eq_card_sdiff_iff,lacking_sdiff,settledLacking_sdiff]

end

section
variable {f : Functions} {t : TypedTable} {source : String} {prod shadow : Content} {cutoff : Int} {k : Key}

/-- The row of the full join for a key. -/
def entry (source : String) (prod shadow : Content) (k : Key) : Joined :=
  (((live source prod).get k).map (fun row => (k,row)),((live source shadow).get k).map (fun row => (k,row)))

private theorem live_source {c : Content} {x : Key × StoredRow} (inside : x ∈ (live source c).rows) : x.1.sourceId = source :=
  (live_eq_some.mp (Relation.mem_rows.mp inside)).2.1

private theorem join_eq : fullJoin onKeys (live source prod).rows (live source shadow).rows =
    (liveKeys source prod shadow).val.map (entry source prod shadow) := by
  refine fullJoin_rows (fun x inside y inside' => ?_)
  have own := live_source inside
  have own' := live_source inside'
  obtain ⟨⟨s,t,i⟩,_⟩ := x
  obtain ⟨⟨s',t',i'⟩,_⟩ := y
  obtain rfl : s = source := own
  obtain rfl : s' = s := own'
  simp only [onKeys,Bool.and_eq_true,decide_eq_true_eq,Key.mk.injEq,true_and]
  exact ⟨fun same => ⟨same.1.symm,same.2.symm⟩,fun same => ⟨same.1.symm,same.2.symm⟩⟩

/-- A number of the comparison counts keys. -/
theorem card_joinedRows (q : JoinedRow → Bool) : ((joinedRows f t source prod shadow cutoff).filter (fun r => q r)).card =
    ((liveKeys source prod shadow).filter (fun k =>
      before cutoff (lastChange (entry source prod shadow k)) ∧ q (selectJoined f t (entry source prod shadow k)))).card := by
  rw [joinedRows,join_eq,Multiset.filter_map,Multiset.filter_map,Multiset.filter_map,Multiset.card_map,Multiset.card_map,
    Multiset.filter_filter,Finset.card_def,Finset.filter_val]
  exact congrArg Multiset.card (Multiset.filter_congr (fun k _ => and_comm))

/-- Of a key that is live on one side only, the filter sees that side. -/
theorem before_lastChange_right (k : Key) (s : StoredRow) :
    before cutoff (lastChange (none,some (k,s))) = before cutoff (greatest (times s)) :=
  before_congr (fun x => by simp [times])

private theorem before_lastChange_left (k : Key) (p : StoredRow) :
    before cutoff (lastChange (some (k,p),none)) = before cutoff (greatest (times p)) :=
  before_congr (fun x => by simp [times])

private theorem missingInProd_eq : ((joinedRows f t source prod shadow cutoff).filter (fun r => r.missingP)).card =
    (lacking source shadow prod cutoff).card := by
  rw [card_joinedRows]
  refine congrArg Finset.card (Finset.ext (fun k => ?_))
  rw [Finset.mem_filter,lacking,Finset.mem_filter]
  simp only [liveKeys,Finset.mem_union,Relation.mem_keys,selectJoined,entry]
  cases at_prod : (live source prod).get k with
  | some p => simp
  | none =>
    cases at_shadow : (live source shadow).get k with
    | none => simp
    | some s => simp [before_lastChange_right,timesOf_row (live_eq_some.mp at_shadow).1]

private theorem missingInShadow_eq : ((joinedRows f t source prod shadow cutoff).filter (fun r => r.missingS)).card =
    (lacking source prod shadow cutoff).card := by
  rw [card_joinedRows]
  refine congrArg Finset.card (Finset.ext (fun k => ?_))
  rw [Finset.mem_filter,lacking,Finset.mem_filter]
  simp only [liveKeys,Finset.mem_union,Relation.mem_keys,selectJoined,entry]
  cases at_shadow : (live source shadow).get k with
  | some s => simp
  | none =>
    cases at_prod : (live source prod).get k with
    | none => simp
    | some p => simp [before_lastChange_left,timesOf_row (live_eq_some.mp at_prod).1]

/-- The settled differences of a side: the live keys of the other that it lacks. -/
theorem absentFrom_eq {side other : Content} (sides : side = prod ∧ other = shadow ∨ side = shadow ∧ other = prod) :
    absentFrom source prod shadow cutoff side = settledLacking source other side cutoff := by
  ext k
  have order : before cutoff (latestChange prod shadow k) = before cutoff (greatest (timesOf other k ++ timesOf side k)) := by
    refine before_congr (fun x => ?_)
    rcases sides with ⟨rfl,rfl⟩ | ⟨rfl,rfl⟩
    all_goals
      simp [timesOf]
      tauto
  have keys : k ∈ liveKeys source prod shadow ↔ k ∈ (live source other).keys ∨ k ∈ (live source side).keys := by
    rw [liveKeys,Finset.mem_union]
    rcases sides with ⟨rfl,rfl⟩ | ⟨rfl,rfl⟩
    · exact or_comm
    · exact Iff.rfl
  rw [absentFrom,Finset.mem_filter,keys,settledLacking,Finset.mem_filter,Settled,order,Relation.mem_keys,Relation.mem_keys]
  cases (live source side).get k with
  | none => simp [and_comm]
  | some row => simp

/-- Of a key that is live on both sides the filter sees every change. -/
theorem mismatchedRows_eq (apart : TellsApart t source prod shadow f) :
    ((joinedRows f t source prod shadow cutoff).filter (fun r => r.differs && !r.missingP && !r.missingS)).card =
      (mismatched t source prod shadow cutoff).card := by
  rw [card_joinedRows (fun r => r.differs && !r.missingP && !r.missingS)]
  refine congrArg Finset.card (Finset.ext (fun k => ?_))
  rw [Finset.mem_filter,mismatched,Finset.mem_filter]
  refine and_congr_right (fun _ => ?_)
  rcases Option.eq_none_or_eq_some ((live source prod).get k) with at_prod | ⟨p,at_prod⟩
  · simp [selectJoined,entry,valuesDiffer,at_prod]
  · rcases Option.eq_none_or_eq_some ((live source shadow).get k) with at_shadow | ⟨s,at_shadow⟩
    · simp [selectJoined,entry,valuesDiffer,at_prod,at_shadow]
    · have same : fingerprint f t (some (k,p)) = fingerprint f t (some (k,s)) ↔ comparable t p = comparable t s :=
        ⟨apart k p s at_prod at_shadow,fun same => congrArg (fun values => f.md5 (f.rowText values)) same⟩
      have seen : lastChange (some (k,p),some (k,s)) = latestChange prod shadow k := by
        simp [lastChange,latestChange,(live_eq_some.mp at_prod).1,(live_eq_some.mp at_shadow).1]
      simp [selectJoined,entry,valuesDiffer,at_prod,at_shadow,seen,same,Settled]

/-- The numbers are right when on either side as many keys were deleted within the window as have no timestamp. -/
theorem reconcileShadow_settled_iff (apart : TellsApart t source prod shadow f) :
    CountsSettled t source prod shadow cutoff (reconcileShadow f t source prod shadow cutoff) ↔
      (deletedSince source shadow prod cutoff).card = (untimed source shadow prod cutoff).card ∧
      (deletedSince source prod shadow cutoff).card = (untimed source prod shadow cutoff).card := by
  rw [← lacking_card_iff,← lacking_card_iff,← absentFrom_eq (.inl ⟨rfl,rfl⟩),← absentFrom_eq (.inr ⟨rfl,rfl⟩),← missingInProd_eq (f := f) (t := t),
    ← missingInShadow_eq (f := f) (t := t)]
  exact ⟨fun settled => ⟨settled.missingInProd,settled.missingInShadow⟩,
    fun same => ⟨mismatchedRows_eq apart,same.1,same.2⟩⟩

end

/-- The last run that is recorded, with a status by the total of the numbers. -/
def RecordedByTotal (platform : Platform) (pair : Pair) (result : ShadowResult) (db : Database) : Prop :=
  ∃ run, db.runs.getLast? = some run ∧ run.pair = pair ∧ run.comparison = .shadowVsProd ∧
    (run.status = .PASSED ↔ ((result.mismatchedRows + result.missingInProd + result.missingInShadow : Nat) : Int) ≤
      platform.reconciliationMaxDiscrepancies)

/-- A run for a table of the contract counts exactly the settled differences, and is recorded as passed exactly when
    their total is within the tolerance, if and only if on either side the live keys that are settled there and were
    deleted on the other side within the window are as many as those without a timestamp that were deleted before it. -/
theorem run_counts_settled_iff (f : Functions) (reads : Reads) (platform : Platform) (session : Session) (db : Database)
    (pair : Pair) (requested : Option Int) (t : TypedTable) (known : reads.tableContract pair.2 = some t)
    (apart : TellsApart t pair.1 (reads.prod pair.2) (reads.shadow pair.2) f) :
    ∃ result db', runShadowReconciliation f reads platform session db pair requested = .ok (result,db') ∧
      let cutoff := session.now - result.settleSeconds * 1000000
      (CountsSettled t pair.1 (reads.prod pair.2) (reads.shadow pair.2) cutoff result.toCounts ∧
          RecordedByTotal platform pair result db' ↔
        (deletedSince pair.1 (reads.shadow pair.2) (reads.prod pair.2) cutoff).card =
            (untimed pair.1 (reads.shadow pair.2) (reads.prod pair.2) cutoff).card ∧
          (deletedSince pair.1 (reads.prod pair.2) (reads.shadow pair.2) cutoff).card =
            (untimed pair.1 (reads.prod pair.2) (reads.shadow pair.2) cutoff).card) := by
  rw [runShadowReconciliation,known]
  refine ⟨_,_,rfl,?_⟩
  intro cutoff
  rw [and_iff_left]
  · exact reconcileShadow_settled_iff apart
  · refine ⟨_,List.getLast?_concat,rfl,rfl,?_⟩
    simp only [Int.natCast_add]
    split
    · next within => exact iff_of_true rfl within
    · next beyond => exact iff_of_false (by simp) beyond

/-- The text of a row without texts that are quoted, and the digests of three such texts. -/
def someFunctions : Functions where
  rowText values := "(" ++ ",".intercalate (values.map (fun
    | some (.int n) => toString n
    | some (.text s) => s
    | _ => "")) ++ ")"
  md5 text :=
    if text = "(1,,,,Centre,)" then "ec9c5637de5b854ef729771bb9b0dce6"
    else if text = "(1,,,,Branch,)" then "c8d227a8fafbd64b391047bf43ad43b1"
    else if text = "(,,,,,)" then "580b853c4f71a59a35e2480150126bd8" else ""
  limit20 keys := if keys = {some 1} then [some 1] else []

def office (name : String) (ingestedAt : Int) (isDeleted : Bool) : StoredRow :=
  ⟨fun c => [("id",Value.int 1),("name",.text name)].lookup c,none,some ingestedAt,isDeleted⟩

def officeKey : Key := ⟨"branch-001","default",1⟩

def oneOffice (row : StoredRow) : Content := .tabulate {officeKey} (fun _ => some row)

/-- One office in `raw`, and one in `raw_shadow`. -/
def offices (prod shadow : StoredRow) : Reads :=
  ⟨fun name => if name = "m_office" then some FineractTables.mOffice else none,fun _ => oneOffice prod,
    fun _ => oneOffice shadow,3600⟩

def strict : Platform := ⟨fun _ => false,fun _ => true,fun _ => true,60,0,"label"⟩

/-- 10000 seconds after the epoch. -/
def atNow : Session := ⟨"alice",10000000000⟩

/-- Two names of one office are a settled mismatch. -/
theorem renamed_office_counts : ∃ result db', runShadowReconciliation someFunctions (offices (office "Centre" 0 false)
      (office "Branch" 0 false)) strict atNow empty ("branch-001","m_office") (some 900) = .ok (result,db') ∧
    CountsSettled FineractTables.mOffice "branch-001" (oneOffice (office "Centre" 0 false)) (oneOffice (office "Branch" 0 false))
      (10000000000 - result.settleSeconds * 1000000) result.toCounts ∧
    RecordedByTotal strict ("branch-001","m_office") result db' := by
  have apart : TellsApart FineractTables.mOffice "branch-001" (oneOffice (office "Centre" 0 false))
      (oneOffice (office "Branch" 0 false)) someFunctions := by
    intro k p s at_prod at_shadow same
    obtain ⟨there,_⟩ := live_eq_some.mp at_prod
    obtain ⟨there',_⟩ := live_eq_some.mp at_shadow
    simp only [oneOffice,Relation.tabulate_get,Option.ite_none_right_eq_some,Option.some.injEq] at there there'
    obtain ⟨_,rfl⟩ := there
    obtain ⟨_,rfl⟩ := there'
    exact absurd same (by decide +kernel)
  obtain ⟨result,db',ran,settled_iff⟩ := run_counts_settled_iff someFunctions (offices (office "Centre" 0 false)
    (office "Branch" 0 false)) strict atNow empty ("branch-001","m_office") (some 900) FineractTables.mOffice rfl apart
  have settle : result.settleSeconds = 900 := by
    obtain ⟨rfl,_⟩ := Prod.mk.inj (Except.ok.inj ran)
    rfl
  refine ⟨result,db',ran,settled_iff.mpr ?_⟩
  rw [settle]
  decide +kernel

/-- An office that was deleted from `raw` a second ago counts as missing there, although the window is of 900 seconds. -/
theorem deletion_not_settled : ∃ result db', runShadowReconciliation someFunctions (offices (office "Centre" 9999000000 true)
      (office "Centre" 0 false)) strict atNow empty ("branch-001","m_office") (some 900) = .ok (result,db') ∧
    ¬CountsSettled FineractTables.mOffice "branch-001" (oneOffice (office "Centre" 9999000000 true))
      (oneOffice (office "Centre" 0 false)) (10000000000 - 900 * 1000000) result.toCounts ∧ result.passed = false := by
  refine ⟨_,_,rfl,fun settled => ?_,by decide +kernel⟩
  have differ : (reconcileShadow someFunctions FineractTables.mOffice "branch-001" (oneOffice (office "Centre" 9999000000 true))
      (oneOffice (office "Centre" 0 false)) (10000000000 - 900 * 1000000)).missingInProd ≠
      (absentFrom "branch-001" (oneOffice (office "Centre" 9999000000 true)) (oneOffice (office "Centre" 0 false))
        (10000000000 - 900 * 1000000) (oneOffice (office "Centre" 9999000000 true))).card := by
    decide +kernel
  exact differ settled.missingInProd

end FineractBi.ShadowReconcile

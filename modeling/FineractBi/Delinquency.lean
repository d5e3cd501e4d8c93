import FineractBi.Lib.Query
import FineractBi.Staging

/-!
`stg_m_delinquency` as the query computes it: the live tags left joined with
their range, the mappings of the range and the bucket of each mapping. A range
of several mappings repeats its tags; with one mapping a range the view has the
rows of `stgMDelinquency`.
-/
namespace FineractBi.Delinquency
open Query FineractBi.Contract FineractBi.ApplyBatch FineractBi.Staging

/-- A row of `stg_m_delinquency`. -/
structure StagedEvent where
  delinquencyEventId : Key
  delinquencyRangeId : Option Int
  event : DelinquencyEvent
  deriving DecidableEq

/-- Two rows of one source and tenant, the first naming the second. -/
def names (k : Key) (id : Option Int) (k' : Key) : Bool :=
  k'.sourceId = k.sourceId && k'.tenantId = k.tenantId && id = some k'.id

/-- A tag with the range, mapping and bucket that it was joined with. -/
abbrev JoinedTag :=
  (((Key × Tag) × Option (Key × DelinquencyRange)) × Option (Key × BucketMapping)) × Option (Key × Option String)

def onRange (d : Key × Tag) (r : Key × DelinquencyRange) : Bool := names d.1 d.2.delinquencyRangeId r.1

def onMapping (d : (Key × Tag) × Option (Key × DelinquencyRange)) (m : Key × BucketMapping) : Bool :=
  match d.2 with
  | none => false
  | some r => m.1.sourceId = r.1.sourceId && m.1.tenantId = r.1.tenantId && m.2.delinquencyRangeId = some r.1.id

def onBucket (d : ((Key × Tag) × Option (Key × DelinquencyRange)) × Option (Key × BucketMapping))
    (b : Key × Option String) : Bool :=
  match d.2 with
  | none => false
  | some m => names m.1 m.2.delinquencyBucketId b.1

/-- The select list. -/
def selectEvent (row : JoinedTag) : StagedEvent :=
  let d := row.1.1.1
  let r := row.1.1.2.map Prod.snd
  let m := row.1.2.map Prod.snd
  ⟨d.1,d.2.delinquencyRangeId,d.2.loanId,d.2.addedonDate,d.2.liftedonDate,
    r.bind (·.classification),r.bind (·.minAgeDays),r.bind (·.maxAgeDays),m.bind (·.delinquencyBucketId),
    row.2.bind (·.2)⟩

def stgMDelinquencyRows (raw : RawTables) : Multiset StagedEvent :=
  (leftJoin onBucket
    (leftJoin onMapping (leftJoin onRange (tagHistory raw).rows (ranges raw).rows) (mappings raw).rows)
    (buckets raw).rows).map selectEvent

section
variable {raw : RawTables}

private theorem names_iff {k k' : Key} {id : Option Int} : names k id k' = true ↔ id.map (refer k) = some k' := by
  cases id with
  | none => simp [names]
  | some n =>
    obtain ⟨s,t,i⟩ := k
    obtain ⟨s',t',i'⟩ := k'
    simp only [names,refer,Option.some.injEq,Bool.and_eq_true,decide_eq_true_eq,Option.map_some,Key.mk.injEq]
    constructor
    · rintro ⟨⟨rfl,rfl⟩,rfl⟩
      exact ⟨rfl,rfl,rfl⟩
    · rintro ⟨rfl,rfl,rfl⟩
      exact ⟨⟨rfl,rfl⟩,rfl⟩

/-- A named row is matched once, if it is there. -/
theorem matching_named {Row A : Type} {r : Relation Key Row} {on : A → Key × Row → Bool} {x : A} (k : Key)
    (id : Option Int) (named : ∀ y, on x y = names k id y.1) :
    matching on r.rows x = (id.bind (fun n => (r.get (refer k n)).map (fun row => (refer k n,row)))).elim 0 ({·}) := by
  cases id with
  | none =>
    refine Multiset.filter_eq_nil.mpr (fun y _ => ?_)
    simp [named,names]
  | some n =>
    rw [matching,r.rows_filter_key _ (k := refer k n),Option.bind_some]
    · cases r.get (refer k n) <;> rfl
    · intro y
      rw [named,names_iff,Option.map_some,Option.some.injEq]
      exact eq_comm

/-- The range of a tag. -/
def rangeEntry (raw : RawTables) (d : Key × Tag) : Option (Key × DelinquencyRange) :=
  d.2.delinquencyRangeId.bind (fun id => ((ranges raw).get (refer d.1 id)).map (fun r => (refer d.1 id,r)))

/-- The mapping of a range, with its key. -/
def mappingEntry (raw : RawTables) (range : Key) : Option (Key × BucketMapping) :=
  match (mappingsOf raw range).sup (fun m => (m.1.id : WithBot Int)) with
  | ⊥ => none
  | (id : Int) => ((mappings raw).get (refer range id)).map (fun m => (refer range id,m))

/-- The bucket of a mapping. -/
def bucketEntry (raw : RawTables) (m : Key × BucketMapping) : Option (Key × Option String) :=
  m.2.delinquencyBucketId.bind (fun id => ((buckets raw).get (refer m.1 id)).map (fun b => (refer m.1 id,b)))

private theorem mappingEntry_snd (range : Key) : (mappingEntry raw range).map Prod.snd = mappingOf raw range := by
  simp only [mappingEntry,mappingOf]
  generalize (mappingsOf raw range).sup (fun m => (m.1.id : WithBot Int)) = top
  cases top with
  | bot => rfl
  | coe id => simp [Function.comp_def]

private theorem mappingEntry_fst {range : Key} {m : Key × BucketMapping} (found : mappingEntry raw range = some m) (id : Int) :
    refer m.1 id = refer range id := by
  simp only [mappingEntry] at found
  split at found
  · cases found
  · obtain ⟨_,_,rfl⟩ := Option.map_eq_some_iff.mp found
    rfl

private theorem matching_mappings {d : Key × Tag} {r : Key × DelinquencyRange} :
    matching onMapping (mappings raw).rows (d,some r) = (mappingsOf raw r.1).val := by
  refine Multiset.filter_congr (fun m _ => ?_)
  simp [onMapping,and_assoc]

private theorem mappingsOf_single {range : Key} (one : (mappingsOf raw range).card ≤ 1) :
    (mappingsOf raw range).val = (mappingEntry raw range).elim 0 ({·}) := by
  rcases (mappingsOf raw range).eq_empty_or_nonempty with empty | ⟨m,member⟩
  · simp [mappingEntry,empty]
  · have alone : mappingsOf raw range = {m} :=
      Finset.eq_singleton_iff_unique_mem.mpr ⟨member,fun n other => Finset.card_le_one.mp one n other m member⟩
    obtain ⟨inside,source,tenant,_⟩ := Finset.mem_filter.mp member
    have key : refer range m.1.id = m.1 := by
      obtain ⟨⟨_,_,_⟩,_⟩ := m
      simp_all [refer]
    have found : (mappings raw).get m.1 = some m.2 := Relation.mem_rowSet.mp inside
    have entry : mappingEntry raw range = some m := by
      simp only [mappingEntry,alone,Finset.sup_singleton]
      show ((mappings raw).get (refer range m.1.id)).map _ = some m
      rw [key,found]
      rfl
    rw [entry,alone]
    rfl

/-- Every range that a live tag names has at most one live mapping. -/
def MappedOnce (raw : RawTables) : Prop :=
  ∀ d ∈ (tagHistory raw).rows, ∀ r ∈ rangeEntry raw d, (mappingsOf raw r.1).card ≤ 1

theorem SingleMapping.mappedOnce (single : SingleMapping raw) : MappedOnce raw := by
  intro d _ r _
  refine Finset.card_le_one.mpr (fun m member n other => ?_)
  obtain ⟨inside,source,tenant,own⟩ := Finset.mem_filter.mp member
  obtain ⟨inside',source',tenant',own'⟩ := Finset.mem_filter.mp other
  exact single m inside n inside' (source.trans source'.symm) (tenant.trans tenant'.symm) (by simp [own])
    (own.trans own'.symm)

/-- The event of a tag. -/
def eventOf (raw : RawTables) (d : Key × Tag) : DelinquencyEvent :=
  ⟨d.2.loanId,d.2.addedonDate,d.2.liftedonDate,classification raw d.1 d.2⟩

private theorem classification_ranged (raw : RawTables) (d : Key) (t : Tag) :
    classification raw d t = match rangeEntry raw (d,t) with
      | none => ⟨none,none,none,none,none⟩
      | some (rangeKey,r) =>
        let bucketId := (mappingOf raw rangeKey).bind (·.delinquencyBucketId)
        ⟨r.classification,r.minAgeDays,r.maxAgeDays,bucketId,
          (bucketId.bind (fun id => (buckets raw).get (refer d id))).join⟩ := rfl

/-- With at most one mapping a range, the view has one row for each live tag. -/
theorem stgMDelinquencyRows_mapped (once : MappedOnce raw) : stgMDelinquencyRows raw =
    (tagHistory raw).rows.map (fun d => ⟨d.1,d.2.delinquencyRangeId,eventOf raw d⟩) := by
  have ranged : leftJoin onRange (tagHistory raw).rows (ranges raw).rows =
      (tagHistory raw).rows.map (fun d => (d,rangeEntry raw d)) :=
    leftJoin_eq_map (fun d _ => matching_named _ _ (fun _ => rfl))
  have mapped : leftJoin onMapping ((tagHistory raw).rows.map (fun d => (d,rangeEntry raw d))) (mappings raw).rows =
      ((tagHistory raw).rows.map (fun d => (d,rangeEntry raw d))).map
        (fun d => (d,d.2.bind (fun r => mappingEntry raw r.1))) := by
    refine leftJoin_eq_map ?_
    rintro ⟨d,range⟩ inside
    obtain ⟨d',there,same⟩ := Multiset.mem_map.mp inside
    obtain ⟨rfl,rfl⟩ := Prod.mk.inj same
    cases named : rangeEntry raw d' with
    | none => exact Multiset.filter_eq_nil.mpr (fun _ _ => by simp [onMapping])
    | some r => rw [matching_mappings,mappingsOf_single (once d' there r named)]; rfl
  rw [stgMDelinquencyRows,ranged,mapped,leftJoin_eq_map (f := fun d => d.2.bind (bucketEntry raw)),Multiset.map_map,
    Multiset.map_map,Multiset.map_map]
  · refine Multiset.map_congr rfl (fun d _ => ?_)
    simp only [Function.comp_def,selectEvent,eventOf,classification_ranged]
    cases at_range : rangeEntry raw d with
    | none => rfl
    | some r =>
      obtain ⟨rangeKey,range⟩ := r
      have own : ∀ id, refer rangeKey id = refer d.1 id := by
        obtain ⟨n,_,found⟩ := Option.bind_eq_some_iff.mp at_range
        obtain ⟨_,_,same⟩ := Option.map_eq_some_iff.mp found
        obtain ⟨rfl,rfl⟩ := Prod.mk.inj same
        exact fun _ => rfl
      simp only [Option.map_some,Option.bind_some,← mappingEntry_snd]
      cases at_mapping : mappingEntry raw rangeKey with
      | none => rfl
      | some m =>
        simp only [Option.map_some,Option.bind_some,bucketEntry]
        cases m.2.delinquencyBucketId with
        | none => rfl
        | some id =>
          simp only [Option.bind_some,mappingEntry_fst at_mapping,own]
          cases (buckets raw).get (refer d.1 id) <;> rfl
  · rintro ⟨d,m⟩ _
    cases m with
    | none => exact Multiset.filter_eq_nil.mpr (fun _ _ => by simp [onBucket])
    | some m => exact matching_named _ _ (fun _ => rfl)

theorem stgMDelinquencyRows_eq (single : SingleMapping raw) : stgMDelinquencyRows raw =
    (tagHistory raw).rows.map (fun d => ⟨d.1,d.2.delinquencyRangeId,eventOf raw d⟩) :=
  stgMDelinquencyRows_mapped (SingleMapping.mappedOnce single)

end

end FineractBi.Delinquency

import Mathlib.Data.List.Basic
import Mathlib.Logic.Function.Basic

/-!
A keyed store whose transactions lock the rows they change until they end and
write journal entries beside the changes. Entries of a key are committed in the
order in which its row was changed, since one transaction at a time holds the
row: what every change keeps of a row and the entries of its key, every
interleaving of transactions keeps (`Told`).
-/
namespace Journal
universe u v w
variable {Key : Type u} {Row : Type v} {Entry : Type w}

/-- An open transaction: the rows it changed, none where it deleted one, and the entries it wrote. -/
structure Tx (Key : Type u) (Row : Type v) (Entry : Type w) where
  changes : Key → Option (Option Row)
  written : List Entry

/-- The committed rows and entries, the next number of the sequence that entries draw from, the row locks and the
    open transactions. -/
structure Store (Key : Type u) (Row : Type v) (Entry : Type w) where
  rows : Key → Option Row
  history : List Entry
  next : Nat
  locks : Key → Option Nat
  txs : Nat → Option (Tx Key Row Entry)

/-- A row as an open transaction sees it. -/
def Store.view (s : Store Key Row Entry) (tx : Tx Key Row Entry) (k : Key) : Option Row := (tx.changes k).getD (s.rows k)

/-- No other transaction holds the row. -/
def Store.Free (s : Store Key Row Entry) (id : Nat) (k : Key) : Prop := s.locks k = none ∨ s.locks k = some id

instance (s : Store Key Row Entry) (id : Nat) (k : Key) : Decidable (s.Free id k) := inferInstanceAs (Decidable (_ ∨ _))

def Store.start (s : Store Key Row Entry) (id : Nat) : Store Key Row Entry :=
  { s with txs := Function.update s.txs id (some ⟨fun _ => none,[]⟩) }

/-- Change a row, under its lock, and write entries. -/
def Store.change [DecidableEq Key] (s : Store Key Row Entry) (id : Nat) (tx : Tx Key Row Entry) (k : Key) (new : Option Row)
    (entries : List Entry) : Store Key Row Entry :=
  { s with
    next := s.next + entries.length
    locks := Function.update s.locks k (some id)
    txs := Function.update s.txs id (some ⟨Function.update tx.changes k (some new),tx.written ++ entries⟩) }

def Store.unlock (s : Store Key Row Entry) (id : Nat) : Key → Option Nat := fun k => if s.locks k = some id then none else s.locks k

def Store.commit (s : Store Key Row Entry) (id : Nat) (tx : Tx Key Row Entry) : Store Key Row Entry :=
  { s with
    rows := s.view tx
    history := s.history ++ tx.written
    locks := s.unlock id
    txs := Function.update s.txs id none }

/-- A number that a transaction drew is not given back. -/
def Store.rollback (s : Store Key Row Entry) (id : Nat) : Store Key Row Entry :=
  { s with locks := s.unlock id, txs := Function.update s.txs id none }

def empty : Store Key Row Entry := ⟨fun _ => none,[],0,fun _ => none,fun _ => none⟩

section
variable [DecidableEq Key] (keyOf : Entry → Key)

/-- The entries of a key, in order. -/
def entriesOf (k : Key) (entries : List Entry) : List Entry := entries.filter (fun e => keyOf e = k)

variable (Tells : Nat → Key → List Entry → Option Row → Prop)

/-- The entries of every key tell its row, in the committed state and as every open transaction sees it. -/
structure Told (s : Store Key Row Entry) : Prop where
  committed : ∀ k, Tells s.next k (entriesOf keyOf k s.history) (s.rows k)
  pending : ∀ id tx, s.txs id = some tx → ∀ k, Tells s.next k (entriesOf keyOf k (s.history ++ tx.written)) (s.view tx k)
  locked : ∀ id tx, s.txs id = some tx → ∀ k, s.locks k ≠ some id → tx.changes k = none ∧ entriesOf keyOf k tx.written = []

end

section
variable {s : Store Key Row Entry} {id id' : Nat} {tx tx' : Tx Key Row Entry} {k : Key}

theorem start_txs : (s.start id).txs = Function.update s.txs id (some ⟨fun _ => none,[]⟩) := rfl

/-- The other transactions stay open when one ends. -/
theorem open_of_update (found : Function.update s.txs id none id' = some tx') :
    id' ≠ id ∧ s.txs id' = some tx' := by
  have other : id' ≠ id := by
    rintro rfl
    rw [Function.update_self] at found
    cases found
  rw [Function.update_of_ne other] at found
  exact ⟨other,found⟩

private theorem unlock_of_ne (other : id' ≠ id) (held : s.unlock id k ≠ some id') : s.locks k ≠ some id' := by
  intro locked
  rw [Store.unlock,locked,if_neg (by simpa using other)] at held
  exact held rfl

end

section
variable [DecidableEq Key] {keyOf : Entry → Key} {Tells : Nat → Key → List Entry → Option Row → Prop} {s : Store Key Row Entry}
  {id : Nat} {tx : Tx Key Row Entry} {k : Key} {new : Option Row} {entries : List Entry}

private theorem entriesOf_append (k : Key) (a b : List Entry) :
    entriesOf keyOf k (a ++ b) = entriesOf keyOf k a ++ entriesOf keyOf k b :=
  List.filter_append ..

private theorem entriesOf_own (own : ∀ e ∈ entries, keyOf e = k) : entriesOf keyOf k entries = entries :=
  List.filter_eq_self.mpr (fun e inside => by simpa using own e inside)

private theorem entriesOf_other {k' : Key} (own : ∀ e ∈ entries, keyOf e = k) (other : k' ≠ k) :
    entriesOf keyOf k' entries = [] :=
  List.filter_eq_nil_iff.mpr (fun e inside => by simpa [own e inside] using other.symm)

theorem change_txs : (s.change id tx k new entries).txs =
    Function.update s.txs id (some ⟨Function.update tx.changes k (some new),tx.written ++ entries⟩) := rfl

private theorem change_locks : (s.change id tx k new entries).locks = Function.update s.locks k (some id) := rfl

theorem Told.initial (nothing : ∀ k, Tells 0 k [] none) : Told keyOf Tells (empty : Store Key Row Entry) := by
  refine ⟨nothing,?_,?_⟩
  · intro id tx found
    cases found
  · intro id tx found
    cases found

theorem Told.start (told : Told keyOf Tells s) : Told keyOf Tells (s.start id) := by
  have found (id' : Nat) (tx : Tx Key Row Entry) (at_id : (s.start id).txs id' = some tx) :
      (tx.changes = fun _ => none) ∧ tx.written = [] ∨ s.txs id' = some tx := by
    by_cases mine : id' = id
    · rw [mine,start_txs,Function.update_self] at at_id
      exact .inl (Option.some.inj at_id ▸ ⟨rfl,rfl⟩)
    · rw [start_txs,Function.update_of_ne mine] at at_id
      exact .inr at_id
  refine ⟨told.committed,fun id' tx at_id k => ?_,fun id' tx at_id k free => ?_⟩
  · rcases found id' tx at_id with ⟨unchanged,unwritten⟩ | old
    · rw [unwritten,List.append_nil,Store.view,unchanged]
      exact told.committed k
    · exact told.pending id' tx old k
  · rcases found id' tx at_id with ⟨unchanged,unwritten⟩ | old
    · exact ⟨by rw [unchanged],by rw [unwritten]; rfl⟩
    · exact told.locked id' tx old k free

/-- A change that keeps the entries telling the row it changes, made under the lock of the row. -/
theorem Told.change (told : Told keyOf Tells s) (later : ∀ n m k h r, n ≤ m → Tells n k h r → Tells m k h r)
    (at_id : s.txs id = some tx) (free : s.Free id k) (own : ∀ e ∈ entries, keyOf e = k)
    (keeps : ∀ h, Tells s.next k h (s.view tx k) → Tells (s.next + entries.length) k (h ++ entries) new) :
    Told keyOf Tells (s.change id tx k new entries) := by
  have grown : s.next ≤ s.next + entries.length := Nat.le_add_right _ _
  refine ⟨fun k' => later _ _ _ _ _ grown (told.committed k'),fun id' tx' found k' => ?_,fun id' tx' found k' held => ?_⟩
  · by_cases mine : id' = id
    · rw [mine,change_txs,Function.update_self] at found
      obtain rfl := Option.some.inj found
      by_cases changed : k' = k
      · rw [changed,Store.view]
        simp only [Function.update_self,Option.getD_some]
        rw [← List.append_assoc,entriesOf_append,entriesOf_own own]
        exact keeps _ (told.pending id tx at_id k)
      · rw [Store.view]
        simp only [Function.update_of_ne changed]
        rw [← List.append_assoc,entriesOf_append,entriesOf_other own changed,List.append_nil]
        exact later _ _ _ _ _ grown (told.pending id tx at_id k')
    · rw [change_txs,Function.update_of_ne mine] at found
      exact later _ _ _ _ _ grown (told.pending id' tx' found k')
  · by_cases mine : id' = id
    · rw [mine,change_txs,Function.update_self] at found
      obtain rfl := Option.some.inj found
      have other : k' ≠ k := by
        rintro rfl
        rw [mine] at held
        rw [change_locks,Function.update_self] at held
        exact held rfl
      have unheld : s.locks k' ≠ some id := by
        rw [mine] at held
        rwa [change_locks,Function.update_of_ne other] at held
      obtain ⟨unchanged,unwritten⟩ := told.locked id tx at_id k' unheld
      refine ⟨(Function.update_of_ne other _ _).trans unchanged,?_⟩
      rw [entriesOf_append,unwritten,entriesOf_other own other,List.nil_append]
    · rw [change_txs,Function.update_of_ne mine] at found
      refine told.locked id' tx' found k' (fun locked => ?_)
      by_cases changed : k' = k
      · subst changed
        rcases free with none | same
        · rw [none] at locked
          cases locked
        · rw [same] at locked
          exact mine (Option.some.inj locked).symm
      · rw [change_locks,Function.update_of_ne changed] at held
        exact held locked

/-- Who holds no lock on a row sees the committed one. -/
theorem Told.sees (told : Told keyOf Tells s) (at_id : s.txs id = some tx) (unheld : s.locks k ≠ some id) :
    s.view tx k = s.rows k ∧ entriesOf keyOf k (s.history ++ tx.written) = entriesOf keyOf k s.history := by
  obtain ⟨unchanged,unwritten⟩ := told.locked id tx at_id k unheld
  rw [Store.view,unchanged,entriesOf_append,unwritten,List.append_nil]
  exact ⟨rfl,rfl⟩

theorem Told.commit (told : Told keyOf Tells s) (at_id : s.txs id = some tx) : Told keyOf Tells (s.commit id tx) := by
  refine ⟨told.pending id tx at_id,fun id' tx' at_id' k => ?_,fun id' tx' at_id' k held => ?_⟩
  · obtain ⟨other,old⟩ := open_of_update at_id'
    by_cases theirs : s.locks k = some id'
    · -- the other transaction holds the row, so that this one left it alone
      have unheld : s.locks k ≠ some id := by
        rw [theirs]
        simpa using other
      obtain ⟨same_row,same_entries⟩ := told.sees at_id unheld
      have pending := told.pending id' tx' old k
      rw [entriesOf_append] at pending ⊢
      show Tells s.next k (entriesOf keyOf k (s.history ++ tx.written) ++ _) ((tx'.changes k).getD (s.view tx k))
      rw [same_entries,same_row]
      exact pending
    · obtain ⟨unchanged,unwritten⟩ := told.locked id' tx' old k theirs
      rw [entriesOf_append,unwritten,List.append_nil,Store.view,unchanged]
      exact told.pending id tx at_id k
  · obtain ⟨other,old⟩ := open_of_update at_id'
    exact told.locked id' tx' old k (unlock_of_ne other held)

theorem Told.rollback (told : Told keyOf Tells s) : Told keyOf Tells (s.rollback id) := by
  refine ⟨told.committed,fun id' tx' at_id' k => told.pending id' tx' (open_of_update at_id').2 k,fun id' tx' at_id' k held => ?_⟩
  obtain ⟨other,old⟩ := open_of_update at_id'
  exact told.locked id' tx' old k (unlock_of_ne other held)

end

/-- The changes account for a row: inserted with the value `first`, changed only as they say, and deleted without
    a word. -/
inductive Explains {Value : Type v} (first : Value) : List (Value × Value) → Option Value → Prop
  | absent : Explains first [] none
  | inserted {changes : List (Value × Value)} : Explains first changes none → Explains first changes (some first)
  | changed {changes : List (Value × Value)} {old new : Value} :
      Explains first changes (some old) → Explains first (changes ++ [(old,new)]) (some new)
  | deleted {changes : List (Value × Value)} {last : Value} : Explains first changes (some last) → Explains first changes none

end Journal

import Mathlib.Algebra.BigOperators.Group.List.Basic
import Mathlib.Data.List.Perm.Basic
import Mathlib.Logic.Function.Basic
import FineractBi.Lib.Transaction

/-!
Amounts that are gathered by key in cells of a shared map. The map is swapped for
an empty one, written, and merged back when the write fails, while others that
have read a map earlier still add to it. What is written and what is still to be
written grows by what is added, as long as everything added lands where it is
still to be written.
-/
namespace SwapBuffer
open Transaction (Commit)
universe u v
variable {Key : Type u} {Amount : Type v}

section
variable [AddCommMonoid Amount]

/-- The sum of the amounts under the keys that satisfy `p`. -/
def total (p : Key → Bool) (amounts : List (Key × Amount)) : Amount :=
  (amounts.map (fun e => if p e.1 then e.2 else 0)).sum

variable {p : Key → Bool} {a b : List (Key × Amount)}

@[simp] theorem total_nil : total p ([] : List (Key × Amount)) = 0 := rfl

@[simp] theorem total_cons (e : Key × Amount) : total p (e :: a) = (if p e.1 then e.2 else 0) + total p a := by
  rw [total,List.map_cons,List.sum_cons,total]

@[simp] theorem total_append : total p (a ++ b) = total p a + total p b := by
  simp [total]

private theorem total_perm (same : a.Perm b) : total p a = total p b := (same.map _).sum_eq

variable [DecidableEq Key]

/-- INSERT ... ON CONFLICT DO UPDATE SET amount = amount + EXCLUDED.amount. -/
def upsert (amounts : List (Key × Amount)) (e : Key × Amount) : List (Key × Amount) :=
  match amounts with
  | [] => [e]
  | old :: rest => if old.1 = e.1 then (old.1,old.2 + e.2) :: rest else old :: upsert rest e

theorem total_upsert (amounts : List (Key × Amount)) (e : Key × Amount) :
    total p (upsert amounts e) = total p amounts + (if p e.1 then e.2 else 0) := by
  induction amounts with
  | nil => simp [upsert]
  | cons old rest ih =>
    unfold upsert
    split
    · next same =>
      rw [total_cons,total_cons,same]
      split
      · rw [add_right_comm]
      · simp
    · rw [total_cons,total_cons,ih,add_assoc]

private theorem total_upserts (more : List (Key × Amount)) (amounts : List (Key × Amount)) :
    total p (more.foldl upsert amounts) = total p amounts + total p more := by
  induction more generalizing amounts with
  | nil => simp
  | cons e rest ih => rw [List.foldl_cons,ih,total_upsert,total_cons,add_assoc]

end

/-- The amounts of some cells. -/
def amounts (cells : Nat → Amount) (entries : List (Key × Nat)) : List (Key × Amount) :=
  entries.map (fun e => (e.1,cells e.2))

private theorem amounts_perm (cells : Nat → Amount) {entries entries' : List (Key × Nat)} (same : entries.Perm entries') :
    (amounts cells entries).Perm (amounts cells entries') := same.map _

/-- A cell that is not among them changes nothing. -/
theorem amounts_other (cells : Nat → Amount) {entries : List (Key × Nat)} {cell : Nat} (amount : Amount)
    (absent : cell ∉ entries.map Prod.snd) :
    amounts (Function.update cells cell amount) entries = amounts cells entries := by
  refine List.map_congr_left fun e member => ?_
  have differs : e.2 ≠ cell := fun same => absent (same ▸ List.mem_map_of_mem member)
  rw [Function.update_of_ne differs]

/-- What is added to one of the cells is added to the total. -/
theorem total_amounts_add [AddCommMonoid Amount] {p : Key → Bool} {cells : Nat → Amount} {entries : List (Key × Nat)}
    {key : Key} {cell : Nat} (amount : Amount) (once : (entries.map Prod.snd).Nodup) (member : (key,cell) ∈ entries) :
    total p (amounts (Function.update cells cell (cells cell + amount)) entries) =
      total p (amounts cells entries) + (if p key then amount else 0) := by
  induction entries with
  | nil => cases member
  | cons e rest ih =>
    obtain ⟨fresh,once⟩ := List.nodup_cons.mp once
    simp only [amounts,List.map_cons,total_cons]
    rcases List.mem_cons.mp member with here | later
    · rw [← here] at fresh ⊢
      have others := amounts_other cells (cells cell + amount) fresh
      simp only [amounts] at others
      rw [others,Function.update_self]
      split
      · rw [add_right_comm]
      · simp
    · have differs : e.2 ≠ cell := fun same => fresh (same ▸ List.mem_map_of_mem later)
      have rests := ih once later
      simp only [amounts] at rests
      rw [Function.update_of_ne differs,rests,add_assoc]

/-- An entry that is added to one of the maps is added to their entries. -/
theorem flatMap_snoc {ms : List Nat} (maps : Nat → List (Key × Nat)) {m : Nat} (e : Key × Nat) (distinct : ms.Nodup)
    (member : m ∈ ms) : (ms.flatMap (Function.update maps m (maps m ++ [e]))).Perm (ms.flatMap maps ++ [e]) := by
  induction ms with
  | nil => cases member
  | cons n rest ih =>
    obtain ⟨fresh,distinct⟩ := List.nodup_cons.mp distinct
    rw [List.flatMap_cons,List.flatMap_cons]
    rcases List.mem_cons.mp member with rfl | later
    · have others : rest.flatMap (Function.update maps m (maps m ++ [e])) = rest.flatMap maps :=
        by
        refine List.flatMap_congr fun n inside => Function.update_of_ne (fun same => fresh ?_) _ _
        exact same ▸ inside
      rw [others,Function.update_self,List.append_assoc,List.append_assoc]
      exact List.perm_append_comm.append_left _
    · have differs : n ≠ m := fun same => fresh (same ▸ later)
      rw [Function.update_of_ne differs,List.append_assoc]
      exact (ih distinct later).append_left _

/-- Cells and maps under their addresses: the map that is current, those that were swapped out
    and not written yet, those whose write failed, and what is written. -/
structure Buffer (Key : Type u) (Amount : Type v) where
  cells : Nat → Amount
  nextCell : Nat
  maps : Nat → List (Key × Nat)
  nextMap : Nat
  current : Nat
  swapped : List Nat
  failed : List Nat
  written : List (Key × Amount)

namespace Buffer
variable (b : Buffer Key Amount)

/-- The maps that are still to be written. -/
def unwritten : List Nat := b.current :: (b.swapped ++ b.failed)

/-- The cells that are still to be written, with their keys. -/
def entries : List (Key × Nat) := b.unwritten.flatMap b.maps

def put (m : Nat) (e : Key × Nat) : Buffer Key Amount :=
  { b with maps := Function.update b.maps m (b.maps m ++ [e]) }

def newCell (amount : Amount) : Buffer Key Amount :=
  { b with cells := Function.update b.cells b.nextCell amount, nextCell := b.nextCell + 1 }

/-- `getAndSet` with a new map. -/
def swap : Buffer Key Amount :=
  { b with
    maps := Function.update b.maps b.nextMap []
    nextMap := b.nextMap + 1
    current := b.nextMap
    swapped := b.current :: b.swapped }

/-- Addresses are given once, and no cell is to be written twice. Some entries may stand aside:
    those of a map that is being merged. -/
structure Sound (aside : List (Key × Nat)) : Prop where
  distinct : b.unwritten.Nodup
  maps : ∀ m ∈ b.unwritten, m < b.nextMap
  once : ((b.entries ++ aside).map Prod.snd).Nodup
  cells : ∀ e ∈ b.entries ++ aside, e.2 < b.nextCell

section
variable [AddCommMonoid Amount]

def addTo (cell : Nat) (amount : Amount) : Buffer Key Amount :=
  { b with cells := Function.update b.cells cell (b.cells cell + amount) }

/-- What is written and what is still to be written, with some entries aside. -/
def sumWith (p : Key → Bool) (aside : List (Key × Nat)) : Amount :=
  total p b.written + total p (amounts b.cells (b.entries ++ aside))

def sum (p : Key → Bool) : Amount := b.sumWith p []

variable [DecidableEq Key]

/-- `computeIfAbsent` and the addition to the cell. -/
def add (m : Nat) (key : Key) (amount : Amount) : Buffer Key Amount :=
  match (b.maps m).lookup key with
  | some cell => b.addTo cell amount
  | none => (b.newCell amount).put m (key,b.nextCell)

/-- The cells of a swapped map are written, or the write fails, or both. -/
def write (m : Nat) : Commit → Buffer Key Amount
  | .done => { b with swapped := b.swapped.erase m, written := (amounts b.cells (b.maps m)).foldl upsert b.written }
  | .refused => { b with swapped := b.swapped.erase m, failed := m :: b.failed }
  | .unanswered => { b with
      swapped := b.swapped.erase m, failed := m :: b.failed
      written := (amounts b.cells (b.maps m)).foldl upsert b.written }

/-- `Map.merge` into the current map: an absent key takes the cell itself. -/
def mergeEntry (e : Key × Nat) : Buffer Key Amount :=
  match (b.maps b.current).lookup e.1 with
  | some cell => b.addTo cell (b.cells e.2)
  | none => b.put b.current e

/-- A map whose write failed goes back into the current one. -/
def mergeBack (m : Nat) : Buffer Key Amount :=
  (b.maps m).foldl (fun b e => b.mergeEntry e) { b with failed := b.failed.erase m }

/-- What is added to the map under the key is still to be written. -/
def Lands (m : Nat) (key : Key) : Prop :=
  match (b.maps m).lookup key with
  | some cell => (key,cell) ∈ b.entries
  | none => m ∈ b.unwritten

instance (m : Nat) (key : Key) : Decidable (b.Lands m key) := by
  unfold Lands
  split
  · exact inferInstance
  · exact inferInstance

end

end Buffer

/-- One empty map and nothing written. -/
def empty [AddCommMonoid Amount] : Buffer Key Amount := ⟨fun _ => 0,0,fun _ => [],1,0,[],[],[]⟩

section
variable {b b' : Buffer Key Amount} {aside aside' : List (Key × Nat)} {m : Nat} {e : Key × Nat}

/-- The entries may stand aside or not, and in any order. -/
theorem Buffer.Sound.perm (sound : b.Sound aside) (same : (b'.entries ++ aside').Perm (b.entries ++ aside))
    (distinct : b'.unwritten.Nodup) (maps : ∀ m ∈ b'.unwritten, m < b'.nextMap) (nextCell : b'.nextCell = b.nextCell) :
    b'.Sound aside' where
  distinct := distinct
  maps := maps
  once := (same.map Prod.snd).nodup_iff.mpr sound.once
  cells := fun e member => nextCell ▸ sound.cells e (same.mem_iff.mp member)

private theorem put_entries (sound : b.Sound aside) (e : Key × Nat) (member : m ∈ b.unwritten) :
    ((b.put m e).entries ++ aside').Perm (b.entries ++ e :: aside') := by
  have added := (flatMap_snoc b.maps e sound.distinct member).append_right aside'
  rw [List.append_assoc] at added
  exact added

private theorem put_sound (sound : b.Sound (e :: aside)) (member : m ∈ b.unwritten) : (b.put m e).Sound aside :=
  sound.perm (put_entries sound e member) sound.distinct sound.maps rfl

private theorem newCell_fresh (sound : b.Sound aside) : b.nextCell ∉ (b.entries ++ aside).map Prod.snd := by
  intro inside
  obtain ⟨e,member,same⟩ := List.mem_map.mp inside
  have older := sound.cells e member
  omega

private theorem newCell_sound (amount : Amount) (key : Key) (sound : b.Sound []) :
    (b.newCell amount).Sound [(key,b.nextCell)] where
  distinct := sound.distinct
  maps := sound.maps
  once := by
    have fresh := newCell_fresh sound
    have once := sound.once
    rw [List.append_nil] at fresh once
    have cons : (b.nextCell :: b.entries.map Prod.snd).Nodup := List.nodup_cons.mpr ⟨fresh,once⟩
    rw [List.map_append]
    exact (List.perm_append_singleton b.nextCell (b.entries.map Prod.snd)).nodup_iff.mpr cons
  cells := by
    intro e member
    rcases List.mem_append.mp member with old | new
    · exact Nat.lt_succ_of_lt (sound.cells e (List.mem_append_left _ old))
    · rw [List.mem_singleton.mp new]
      exact Nat.lt_succ_self _

/-- A map is taken out of those that are still to be written. -/
theorem entries_take (perm : b.unwritten.Perm (m :: b'.unwritten)) (maps : b'.maps = b.maps) :
    (b'.entries ++ b.maps m).Perm b.entries := by
  have same := perm.flatMap_right b.maps
  rw [List.flatMap_cons] at same
  rw [Buffer.entries,maps]
  exact List.perm_append_comm.trans same.symm

/-- Its entries stand aside then. -/
theorem take_sound (perm : b.unwritten.Perm (m :: b'.unwritten)) (maps : b'.maps = b.maps) (nextMap : b'.nextMap = b.nextMap)
    (nextCell : b'.nextCell = b.nextCell) (sound : b.Sound []) : b'.Sound (b.maps m) := by
  refine sound.perm ?_ (List.nodup_cons.mp (perm.nodup_iff.mp sound.distinct)).2 ?_ nextCell
  · rw [List.append_nil]
    exact entries_take perm maps
  · intro n inside
    exact nextMap ▸ sound.maps n (perm.mem_iff.mpr (List.mem_cons_of_mem _ inside))

/-- Entries that stand aside are given up. -/
theorem Buffer.Sound.forget (kept : aside'.Sublist aside) (sound : b.Sound aside) : b.Sound aside' where
  distinct := sound.distinct
  maps := sound.maps
  once := sound.once.sublist ((kept.append_left _).map _)
  cells := fun e member => sound.cells e ((kept.append_left _).subset member)

/-- A write takes its map out of the swapped ones. -/
theorem erase_swapped (member : m ∈ b.swapped) (current : b'.current = b.current)
    (swapped : b'.swapped = b.swapped.erase m) (failed : b'.failed = b.failed) :
    b.unwritten.Perm (m :: b'.unwritten) := by
  rw [Buffer.unwritten,Buffer.unwritten,current,swapped,failed]
  refine List.Perm.trans (List.Perm.cons _ ((List.perm_cons_erase member).append_right _)) ?_
  exact List.Perm.swap _ _ _

private theorem swap_entries (sound : b.Sound []) : b.swap.entries = b.entries := by
  have fresh : ∀ n ∈ b.unwritten, Function.update b.maps b.nextMap [] n = b.maps n := by
    intro n member
    have older := sound.maps n member
    exact Function.update_of_ne (by omega) _ _
  have current : b.swap.entries = (b.nextMap :: b.unwritten).flatMap (Function.update b.maps b.nextMap []) := rfl
  rw [current,List.flatMap_cons,Function.update_self,List.nil_append]
  exact List.flatMap_congr fresh

theorem swap_sound (sound : b.Sound []) : b.swap.Sound [] := by
  refine sound.perm (by rw [swap_entries sound]) ?_ ?_ rfl
  · refine List.nodup_cons.mpr ⟨fun inside => ?_,sound.distinct⟩
    have older : b.nextMap < b.nextMap := sound.maps _ inside
    omega
  · intro n member
    rcases List.mem_cons.mp member with rfl | old
    · exact Nat.lt_succ_self _
    · exact Nat.lt_succ_of_lt (sound.maps n old)

end

section
variable [AddCommMonoid Amount] {b b' : Buffer Key Amount} {aside aside' : List (Key × Nat)} {p : Key → Bool} {m : Nat}
  {key : Key} {amount : Amount} {e : Key × Nat}

theorem empty_sound : (empty : Buffer Key Amount).Sound [] := by
  constructor <;> simp [empty,Buffer.unwritten,Buffer.entries]

private theorem sumWith_perm (written : total p b'.written = total p b.written) (cells : b'.cells = b.cells)
    (same : (b'.entries ++ aside').Perm (b.entries ++ aside)) : b'.sumWith p aside' = b.sumWith p aside := by
  rw [Buffer.sumWith,Buffer.sumWith,written,cells]
  exact congrArg _ (total_perm (amounts_perm _ same))

private theorem sumWith_cons : b.sumWith p (e :: aside) = b.sumWith p aside + (if p e.1 then b.cells e.2 else 0) := by
  have moved : (b.entries ++ e :: aside).Perm (e :: (b.entries ++ aside)) := List.perm_middle
  rw [Buffer.sumWith,total_perm (amounts_perm _ moved),Buffer.sumWith,add_assoc,add_comm (total p (amounts _ _))]
  exact congrArg _ (total_cons _)

private theorem addTo_sound (cell : Nat) (sound : b.Sound aside) : (b.addTo cell amount).Sound aside :=
  ⟨sound.distinct,sound.maps,sound.once,sound.cells⟩

private theorem addTo_sum {cell : Nat} (sound : b.Sound aside) (member : (key,cell) ∈ b.entries) :
    (b.addTo cell amount).sumWith p aside = b.sumWith p aside + (if p key then amount else 0) := by
  have grown : total p (amounts (b.addTo cell amount).cells (b.entries ++ aside)) = _ :=
    total_amounts_add amount sound.once (List.mem_append_left _ member)
  calc (b.addTo cell amount).sumWith p aside
      = total p b.written + total p (amounts (b.addTo cell amount).cells (b.entries ++ aside)) := rfl
    _ = b.sumWith p aside + (if p key then amount else 0) := by rw [grown,Buffer.sumWith,add_assoc]

private theorem newCell_sum (sound : b.Sound []) :
    (b.newCell amount).sumWith p [(key,b.nextCell)] = b.sum p + (if p key then amount else 0) := by
  have others := amounts_other b.cells amount (newCell_fresh sound)
  rw [sumWith_cons]
  calc (b.newCell amount).sumWith p [] + (if p key then (b.newCell amount).cells b.nextCell else 0)
      = total p b.written + total p (amounts (b.newCell amount).cells (b.entries ++ [])) +
          (if p key then (b.newCell amount).cells b.nextCell else 0) := rfl
    _ = b.sum p + (if p key then amount else 0) := by
      simp only [Buffer.newCell,others,Function.update_self]
      rfl

theorem swap_sum (sound : b.Sound []) : b.swap.sum p = b.sum p :=
  sumWith_perm rfl rfl (by rw [swap_entries sound])

variable [DecidableEq Key]

private theorem lookup_entry {maps : List (Key × Nat)} {cell : Nat} (found : maps.lookup key = some cell) :
    (key,cell) ∈ maps := by
  obtain ⟨before,after,split,-⟩ := List.lookup_eq_some_iff.mp found
  rw [split]
  simp

theorem add_sound (sound : b.Sound []) (lands : b.Lands m key) : (b.add m key amount).Sound [] := by
  unfold Buffer.Lands at lands
  unfold Buffer.add
  cases found : (b.maps m).lookup key with
  | some cell => exact addTo_sound cell sound
  | none =>
    rw [found] at lands
    exact put_sound (newCell_sound amount key sound) lands

/-- What lands is counted. -/
theorem add_sum (sound : b.Sound []) (lands : b.Lands m key) :
    (b.add m key amount).sum p = b.sum p + (if p key then amount else 0) := by
  unfold Buffer.Lands at lands
  unfold Buffer.add
  cases found : (b.maps m).lookup key with
  | some cell =>
    rw [found] at lands
    exact addTo_sum sound lands
  | none =>
    rw [found] at lands
    have fresh := newCell_sound amount key sound
    rw [← newCell_sum sound]
    exact sumWith_perm rfl rfl (put_entries fresh (key,b.nextCell) lands)

/-- A write with an answer. -/
theorem write_sound (member : m ∈ b.swapped) {outcome : Commit} (answered : outcome ≠ .unanswered)
    (sound : b.Sound []) : (b.write m outcome).Sound [] ∧ (b.write m outcome).sum p = b.sum p := by
  cases outcome with
  | done =>
    have perm : b.unwritten.Perm (m :: (b.write m .done).unwritten) := erase_swapped member rfl rfl rfl
    refine ⟨(take_sound perm rfl rfl rfl sound).forget (List.nil_sublist _),?_⟩
    have taken : ((b.write m .done).entries ++ b.maps m).Perm b.entries := entries_take perm rfl
    have rest := total_perm (p := p) (amounts_perm b.cells taken)
    simp only [amounts,List.map_append,total_append] at rest
    have written : total p (b.write m .done).written = total p b.written + total p (amounts b.cells (b.maps m)) :=
      total_upserts _ _
    simp only [Buffer.sum,Buffer.sumWith,List.append_nil,written]
    rw [add_assoc,amounts,amounts,amounts,← rest,add_comm (total p (List.map _ (b.maps m)))]
    rfl
  | refused =>
    have perm : (b.write m .refused).unwritten.Perm b.unwritten := by
      refine List.Perm.cons _ (List.Perm.trans ?_ ((List.perm_cons_erase member).symm.append_right _))
      exact List.perm_middle
    have entries : ((b.write m .refused).entries ++ []).Perm (b.entries ++ []) := (perm.flatMap_right b.maps).append_right []
    exact ⟨sound.perm entries (perm.nodup_iff.mpr sound.distinct) (fun n inside => sound.maps n (perm.mem_iff.mp inside)) rfl,
      sumWith_perm rfl rfl entries⟩
  | unanswered => exact absurd rfl answered

/-- An entry that stood aside is merged. -/
theorem mergeEntry_sound (sound : b.Sound (e :: aside)) :
    (b.mergeEntry e).Sound aside ∧ (b.mergeEntry e).sumWith p aside = b.sumWith p (e :: aside) := by
  have current : b.current ∈ b.unwritten := List.mem_cons_self
  unfold Buffer.mergeEntry
  cases found : (b.maps b.current).lookup e.1 with
  | some cell =>
    have member : (e.1,cell) ∈ b.entries := List.mem_flatMap.mpr ⟨b.current,current,lookup_entry found⟩
    have rest : b.Sound aside := sound.forget (List.sublist_cons_self e aside)
    exact ⟨addTo_sound cell rest,(addTo_sum rest member).trans sumWith_cons.symm⟩
  | none => exact ⟨put_sound sound current,sumWith_perm rfl rfl (put_entries sound e current)⟩

private theorem mergeEntries_sound (sound : b.Sound aside) :
    (aside.foldl (fun b e => b.mergeEntry e) b).Sound [] ∧
      (aside.foldl (fun b e => b.mergeEntry e) b).sum p = b.sumWith p aside := by
  induction aside generalizing b with
  | nil => exact ⟨sound,rfl⟩
  | cons e rest ih =>
    obtain ⟨merged,same⟩ := mergeEntry_sound (p := p) sound
    rw [← same]
    exact ih merged

/-- A map whose write failed is merged. -/
theorem mergeBack_sound (member : m ∈ b.failed) (sound : b.Sound []) :
    (b.mergeBack m).Sound [] ∧ (b.mergeBack m).sum p = b.sum p := by
  have perm : b.unwritten.Perm (m :: ({ b with failed := b.failed.erase m } : Buffer Key Amount).unwritten) := by
    refine (List.Perm.cons _ ((List.perm_cons_erase member).append_left _)).trans ?_
    refine (List.Perm.cons _ List.perm_middle).trans ?_
    exact List.Perm.swap _ _ _
  obtain ⟨merged,same⟩ := mergeEntries_sound (p := p) (take_sound perm rfl rfl rfl sound)
  refine ⟨merged,same.trans (sumWith_perm rfl rfl ?_)⟩
  rw [List.append_nil]
  exact entries_take perm rfl

end

end SwapBuffer

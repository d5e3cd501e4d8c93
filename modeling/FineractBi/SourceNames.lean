import Mathlib.Data.List.Sort
import FineractBi.Generations
import FineractBi.Lib.Separator

/-!
The names that a source and its capture generation give to a connector and to a
replication slot, and how the reconciler reads them: the source of a connector is
what stands before the last `-g`, the slots of a source are told by prefix and digits.
-/
namespace FineractBi.SourceNames
open Separator FineractBi.Registry

/-- The code points for which `str.isdigit` holds (Python 3.11). -/
def digitRanges : List (Nat × Nat) := [(48,57),(178,179),(185,185),(1632,1641),(1776,1785),(1984,1993),(2406,2415),
  (2534,2543),(2662,2671),(2790,2799),(2918,2927),(3046,3055),(3174,3183),(3302,3311),(3430,3439),(3558,3567),
  (3664,3673),(3792,3801),(3872,3881),(4160,4169),(4240,4249),(4969,4977),(6112,6121),(6160,6169),(6470,6479),
  (6608,6618),(6784,6793),(6800,6809),(6992,7001),(7088,7097),(7232,7241),(7248,7257),(8304,8304),(8308,8313),
  (8320,8329),(9312,9320),(9332,9340),(9352,9360),(9450,9450),(9461,9469),(9471,9471),(10102,10110),(10112,10120),
  (10122,10130),(42528,42537),(43216,43225),(43264,43273),(43472,43481),(43504,43513),(43600,43609),(44016,44025),
  (65296,65305),(66720,66729),(68160,68163),(68912,68921),(69216,69224),(69714,69722),(69734,69743),(69872,69881),
  (69942,69951),(70096,70105),(70384,70393),(70736,70745),(70864,70873),(71248,71257),(71360,71369),(71472,71481),
  (71904,71913),(72016,72025),(72784,72793),(73040,73049),(73120,73129),(92768,92777),(92864,92873),(93008,93017),
  (120782,120831),(123200,123209),(123632,123641),(125264,125273),(127232,127242),(130032,130041)]

def digit (c : Char) : Bool := digitRanges.any (fun range => range.1 ≤ c.toNat && c.toNat ≤ range.2)

/-- `str.isdigit`. -/
def isdigit (text : List Char) : Bool := !text.isEmpty && text.all digit

private theorem digit_of_isDigit {c : Char} (plain : c.isDigit = true) : digit c = true := by
  have range : 48 ≤ c.toNat ∧ c.toNat ≤ 57 := by
    simpa [Char.isDigit,UInt32.le_iff_toNat_le] using plain
  exact List.any_eq_true.mpr ⟨(48,57),by decide,by simp [range]⟩

/-- The text of a generation. -/
theorem generation_digits {g : Int} (positive : 0 ≤ g) : (toString g).toList = Nat.toDigits 10 g.toNat := by
  rw [Int.toString_eq_repr,Int.repr_eq_if,if_pos positive,Nat.toList_repr]

private theorem isdigit_generation {g : Int} (positive : 0 ≤ g) : isdigit (toString g).toList = true := by
  rw [generation_digits positive,isdigit,Bool.and_eq_true]
  refine ⟨by simp,List.all_eq_true.mpr (fun c inside => ?_)⟩
  exact digit_of_isDigit (Numeral.toDigits_isDigit inside)

/-- A character that is no digit does not stand in a text of digits. -/
theorem not_mem_digits {c : Char} {text : List Char} (digits : isdigit text = true) (other : digit c = false) :
    c ∉ text := by
  intro inside
  have shown := List.all_eq_true.mp (Bool.and_eq_true_iff.mp digits).2 c inside
  rw [other] at shown
  cases shown

/-- `source_id_from_connector`. -/
def sourceIdFromConnector (name : String) : Option String :=
  if ! "fbi-src-".toList.isPrefixOf name.toList || (rpartition "-g".toList name.toList).isNone then none
  else
    match rpartition "-g".toList (name.toList.drop "fbi-src-".length) with
    | none => none
    | some (base,gen) => if ! base.isEmpty && isdigit gen then some (String.ofList base) else none

/-- A name that decodes is the source's id between the prefix and the last `-g`, before digits. -/
theorem decodes_iff {name source : String} : sourceIdFromConnector name = some source ↔
    source ≠ "" ∧ ∃ digits, isdigit digits.toList = true ∧ name = "fbi-src-" ++ source ++ "-g" ++ digits := by
  constructor
  · intro found
    unfold sourceIdFromConnector at found
    split at found
    · cases found
    · next shaped =>
      simp only [Bool.or_eq_true,Bool.not_eq_true',not_or,Bool.not_eq_false] at shaped
      obtain ⟨rest,begins⟩ := List.isPrefixOf_iff_prefix.mp shaped.1
      rw [← begins,show "fbi-src-".length = "fbi-src-".toList.length from rfl,List.drop_left] at found
      split at found
      · cases found
      · next base gen parts =>
        split at found
        · next ends =>
          obtain rfl := Option.some.inj found
          obtain ⟨some_base,digits⟩ := Bool.and_eq_true_iff.mp ends
          refine ⟨?_,String.ofList gen,by simpa using digits,?_⟩
          · intro empty
            have base_empty : base = [] := by simpa using congrArg String.toList empty
            simp [base_empty] at some_base
          · have text := rpartition_some parts
            refine String.toList_injective ?_
            rw [← begins,text]
            simp [String.toList_append]
        · cases found
  · rintro ⟨some_source,digits,digits_only,rfl⟩
    have absent : '-' ∉ "g".toList ++ digits.toList := by
      have no_dash := not_mem_digits digits_only (show digit '-' = false by decide)
      simpa using no_dash
    have parts (before : List Char) : rpartition "-g".toList (before ++ "-g".toList ++ digits.toList) =
        some (before,digits.toList) := rpartition_append '-' "g".toList before absent
    have name : ("fbi-src-" ++ source ++ "-g" ++ digits).toList =
        "fbi-src-".toList ++ (source.toList ++ "-g".toList ++ digits.toList) := by simp [String.toList_append]
    have whole : ("fbi-src-" ++ source ++ "-g" ++ digits).toList =
        ("fbi-src-".toList ++ source.toList) ++ "-g".toList ++ digits.toList := by simp [String.toList_append]
    have begins : "fbi-src-".toList.isPrefixOf ("fbi-src-" ++ source ++ "-g" ++ digits).toList = true := by
      rw [name]
      exact List.isPrefixOf_iff_prefix.mpr (List.prefix_append _ _)
    have some_base : source.toList.isEmpty = false := by simpa using some_source
    have holds : rpartition "-g".toList ("fbi-src-" ++ source ++ "-g" ++ digits).toList =
        some ("fbi-src-".toList ++ source.toList,digits.toList) := by rw [whole,parts]
    have after : rpartition "-g".toList (("fbi-src-" ++ source ++ "-g" ++ digits).toList.drop "fbi-src-".length) =
        some (source.toList,digits.toList) := by
      rw [name,show "fbi-src-".length = "fbi-src-".toList.length from rfl,List.drop_left,parts]
    unfold sourceIdFromConnector
    rw [begins,holds,after]
    simp only [some_base,digits_only,Bool.not_false,Bool.and_self,if_true,String.ofList_toList,Option.isNone_some,
      Bool.not_true,Bool.or_self,Bool.false_eq_true,if_false]

/-- An id that is accepted is not empty. -/
theorem sourceId_some {source : String} (valid : sourceIdPattern source = true) : source ≠ "" := by
  rintro rfl
  exact absurd valid (by decide)

/-- The connector of a source decodes to the source. -/
theorem decodes_connectorName {source : String} {g : Int} (valid : sourceIdPattern source = true) (positive : 0 ≤ g) :
    sourceIdFromConnector (connectorName source g) = some source :=
  decodes_iff.mpr ⟨sourceId_some valid,toString g,isdigit_generation positive,rfl⟩

/-- Connector names decode to the source they were made for, whatever separators its id holds; what
    decodes has the form of a connector name; and a name stands for one source and generation. -/
theorem connector_names_decode :
    (∀ source g, sourceIdPattern source = true → 0 ≤ g → sourceIdFromConnector (connectorName source g) = some source) ∧
    (∀ name source, sourceIdFromConnector name = some source →
      ∃ digits, isdigit digits.toList = true ∧ name = "fbi-src-" ++ source ++ "-g" ++ digits) ∧
    (∀ source source' g g', sourceIdPattern source = true → sourceIdPattern source' = true → 0 ≤ g → 0 ≤ g' →
      connectorName source g = connectorName source' g' → source = source' ∧ g = g') ∧
    (∀ r : SourceRecord, sourceIdPattern r.sourceId = true → 0 ≤ r.captureGeneration →
      ∀ other, sourceIdFromConnector r.connectorName = some other → other = r.sourceId) := by
  refine ⟨fun _ _ => decodes_connectorName,fun _ _ found => (decodes_iff.mp found).2,?_,?_⟩
  · intro source source' g g' valid valid' positive positive' same
    have decoded := decodes_connectorName valid positive
    rw [same,decodes_connectorName valid' positive'] at decoded
    obtain rfl := Option.some.inj decoded
    exact ⟨rfl,Generations.connectorName_generation same⟩
  · intro r valid positive other found
    exact Option.some.inj (found.symm.trans (decodes_connectorName valid positive))

/-- An id that ends like a generation. -/
theorem connector_names_decode_g12 : sourceIdFromConnector (connectorName "branch-g12" 3) = some "branch-g12" :=
  connector_names_decode.1 "branch-g12" 3 (by decide) (by decide)

/-- `source_id.replace('-', '_')`. -/
def folded (source : String) : String := String.ofList (source.toList.map (fun c => if c = '-' then '_' else c))

private theorem length_folded (source : String) : (folded source).length = source.length := by
  rw [folded,String.length_ofList,List.length_map,String.length_toList]

/-- The prefix of the slots of a source. -/
def slotPrefix (source : String) : String := "fbi_" ++ folded source ++ "_g"

/-- The slot name of a source and a generation. -/
def slotName (source : String) (generation : Int) : String := slotPrefix source ++ toString generation

theorem slotName_record (r : SourceRecord) : r.slotName = slotName r.sourceId r.captureGeneration := by
  have fold : r.sourceId.map (fun c => if c = '-' then '_' else c) = folded r.sourceId :=
    String.toList_injective (by rw [String.toList_map,folded,String.toList_ofList])
  rw [SourceRecord.slotName,slotName,slotPrefix,fold]

/-- A name that the cleanup of a source takes for one of its slots. -/
def ownSlot (source name : String) : Bool :=
  (slotPrefix source).toList.isPrefixOf name.toList && isdigit (name.toList.drop (slotPrefix source).length)

/-- `stale_slots`. -/
def staleSlots (slots : List (String × Bool)) (source : String) (keep : Option String) : List String :=
  ((slots.filter (fun slot => ownSlot source slot.1 && some slot.1 ≠ keep && !slot.2)).map (·.1)).insertionSort (· ≤ ·)

structure SlotCleanup where
  dropped : List String
  remaining : List String

/-- `drop_slots` on the slots of a database, of which `slots` are those it finds. -/
def dropSlots (slots : List (String × Bool)) (source : String) (keep : Option String) : SlotCleanup where
  dropped := staleSlots slots source keep
  remaining := (((slots.filter (fun slot => slot.1 ∉ staleSlots slots source keep)).map (·.1)).filter
    (fun name => ownSlot source name && some name ≠ keep)).insertionSort (· ≤ ·)

def SlotChar (c : Char) : Prop := ('a' ≤ c ∧ c ≤ 'z') ∨ ('0' ≤ c ∧ c ≤ '9') ∨ c = '_'

instance (c : Char) : Decidable (SlotChar c) := inferInstanceAs (Decidable (_ ∨ _ ∨ _))

/-- A slot name as PostgreSQL takes it: lower-case letters, digits and underscores, below NAMEDATALEN. -/
def SlotNameAccepted (name : String) : Prop := name ≠ "" ∧ name.length ≤ 63 ∧ ∀ c ∈ name.toList, SlotChar c

private theorem mem_staleSlots {slots : List (String × Bool)} {source name : String} {keep : Option String} :
    name ∈ staleSlots slots source keep ↔ (name,false) ∈ slots ∧ ownSlot source name = true ∧ some name ≠ keep := by
  rw [staleSlots,List.mem_insertionSort,List.mem_map]
  constructor
  · rintro ⟨⟨n,active⟩,inside,rfl⟩
    obtain ⟨member,shown⟩ := List.mem_filter.mp inside
    simp only [Bool.and_eq_true,decide_eq_true_eq,Bool.not_eq_true'] at shown
    exact ⟨shown.2 ▸ member,shown.1⟩
  · rintro ⟨member,own,unkept⟩
    exact ⟨(name,false),List.mem_filter.mpr ⟨member,by simp [own,unkept]⟩,rfl⟩

section
variable {source source' : String} {g g' : Int}

private theorem generation_no_underscore (positive : 0 ≤ g) : '_' ∉ "g".toList ++ (toString g).toList := by
  have absent := not_mem_digits (isdigit_generation positive) (show digit '_' = false by decide)
  simpa using absent

private theorem slotName_toList (source : String) (g : Int) : (slotName source g).toList =
    ("fbi_".toList ++ (folded source).toList) ++ "_g".toList ++ (toString g).toList := by
  simp [slotName,slotPrefix,String.toList_append]

/-- Ids that fold alike share the slots of a generation. -/
theorem slotName_eq_iff (positive : 0 ≤ g) (positive' : 0 ≤ g') :
    slotName source g = slotName source' g' ↔ folded source = folded source' ∧ g = g' := by
  constructor
  · intro same
    have texts := congrArg String.toList same
    rw [slotName_toList,slotName_toList] at texts
    obtain ⟨ids,generations⟩ := append_separator '_' "g".toList (generation_no_underscore positive)
      (generation_no_underscore positive') texts
    exact ⟨String.toList_injective (List.append_cancel_left ids),
      Generations.toString_int_injective (String.toList_injective generations)⟩
  · rintro ⟨ids,rfl⟩
    rw [slotName,slotName,slotPrefix,slotPrefix,ids]

/-- The cleanup of a source takes the slots of another one for its own when the ids fold alike. -/
theorem ownSlot_iff (positive : 0 ≤ g') : ownSlot source (slotName source' g') = true ↔ folded source = folded source' := by
  have begins (source : String) : (slotPrefix source).toList = "fbi_".toList ++ (folded source).toList ++ "_g".toList := by
    simp [slotPrefix,String.toList_append]
  constructor
  · intro own
    obtain ⟨starts,digits⟩ := Bool.and_eq_true_iff.mp own
    obtain ⟨rest,text⟩ := List.isPrefixOf_iff_prefix.mp starts
    rw [← text,← String.length_toList,List.drop_left] at digits
    have absent : '_' ∉ "g".toList ++ rest := by
      have no_underscore := not_mem_digits digits (show digit '_' = false by decide)
      simpa using no_underscore
    rw [begins,slotName_toList] at text
    exact String.toList_injective (List.append_cancel_left (append_separator '_' "g".toList absent
      (generation_no_underscore positive) text).1)
  · intro same
    have text : (slotName source' g').toList = (slotPrefix source).toList ++ (toString g').toList := by
      rw [slotName,slotPrefix,slotPrefix,same,String.toList_append]
    rw [ownSlot,text,← String.length_toList,List.drop_left,isdigit_generation positive,Bool.and_true]
    exact List.isPrefixOf_iff_prefix.mpr (List.prefix_append _ _)

/-- The characters of an accepted id; `$` lets a last line feed pass. -/
theorem accepted_chars (text : List Char) (shaped : (match text with
    | [] => false
    | c :: rest => idStart c && rest.all idPart && rest.length ≤ 62) = true) : ∀ c ∈ text, idPart c = true := by
  cases text with
  | nil => cases shaped
  | cons first rest =>
    simp only [Bool.and_eq_true,List.all_eq_true] at shaped
    intro c inside
    rcases List.mem_cons.mp inside with rfl | later
    · simp [idPart,shaped.1.1]
    · exact shaped.1.2 c later

theorem sourceId_chars (valid : sourceIdPattern source = true) : ∀ c ∈ source.toList, idPart c = true ∨ c = '\n' := by
  intro c inside
  simp only [sourceIdPattern,Bool.or_eq_true,Bool.and_eq_true,decide_eq_true_eq] at valid
  rcases valid with whole | ⟨last,rest⟩
  · exact .inl (accepted_chars _ whole c inside)
  · have some_char : source.toList ≠ [] := List.ne_nil_of_mem inside
    have ended : source.toList = source.toList.dropLast ++ ['\n'] := by
      rw [← List.dropLast_concat_getLast some_char]
      simp [Option.some.inj ((List.getLast?_eq_some_getLast some_char).symm.trans last)]
    rw [ended] at inside
    rcases List.mem_append.mp inside with before | newline
    · exact .inl (accepted_chars _ rest c before)
    · exact .inr (List.mem_singleton.mp newline)

/-- What a slot name admits: no line feed, and 57 characters for the id and the generation. -/
def NameFits (source : String) (g : Int) : Prop := '\n' ∉ source.toList ∧ source.length + (toString g).length ≤ 57

private theorem slotAccepted_iff (valid : sourceIdPattern source = true) (positive : 0 ≤ g) :
    SlotNameAccepted (slotName source g) ↔ NameFits source g := by
  have size : (slotName source g).length = source.length + (toString g).length + 6 := by
    rw [slotName,slotPrefix,String.length_append,String.length_append,String.length_append,length_folded]
    simp only [show "fbi_".length = 4 from rfl,show "_g".length = 2 from rfl]
    omega
  have text : ∀ c, c ∈ (slotName source g).toList ↔
      (c ∈ "fbi_".toList ∨ c ∈ (folded source).toList) ∨ c ∈ "_g".toList ∨ c ∈ (toString g).toList := by
    simp [slotName_toList,or_assoc]
  have fold (c : Char) (inside : c ∈ source.toList) : (if c = '-' then '_' else c) ∈ (folded source).toList := by
    rw [folded,String.toList_ofList]
    exact List.mem_map_of_mem inside
  constructor
  · rintro ⟨_,short,chars⟩
    refine ⟨fun newline => ?_,by omega⟩
    have shown := chars '\n' ((text _).mpr (.inl (.inr (fold _ newline))))
    exact absurd shown (by decide)
  · rintro ⟨no_newline,short⟩
    refine ⟨fun empty => ?_,by omega,fun c inside => ?_⟩
    · rw [empty] at size
      simp at size
    · have all : ("fbi_".toList ++ "_g".toList).all (fun c => SlotChar c) = true := by decide
      have fixed_chars : ∀ c ∈ "fbi_".toList ++ "_g".toList, SlotChar c :=
        fun c inside => of_decide_eq_true (List.all_eq_true.mp all c inside)
      rcases (text c).mp inside with (fixed | own) | fixed | digits
      · exact fixed_chars c (List.mem_append_left _ fixed)
      · rw [folded,String.toList_ofList] at own
        obtain ⟨c,member,rfl⟩ := List.mem_map.mp own
        split
        · exact .inr (.inr rfl)
        · next no_dash =>
          rcases sourceId_chars valid c member with part | rfl
          · simp only [idPart,Bool.decide_or,Bool.or_eq_true,decide_eq_true_eq,no_dash,or_false] at part
            rcases part with start | underscore
            · exact (by simpa [idStart] using start : _ ∨ _).imp id .inl
            · exact .inr (.inr underscore)
          · exact absurd member no_newline
      · exact fixed_chars c (List.mem_append_right _ fixed)
      · rw [generation_digits positive] at digits
        have digit := Numeral.toDigits_isDigit digits
        exact .inr (.inl (by simpa [Char.isDigit,Char.le_def] using digit))

end

/-- Two sources share no slot name and no cleanup, and have names that PostgreSQL takes, exactly when their ids differ
    with '-' read as '_' and both names fit. -/
theorem slots_separate_iff (source source' : String) (g g' : Int) (valid : sourceIdPattern source = true)
    (valid' : sourceIdPattern source' = true)
    (positive : 0 ≤ g) (positive' : 0 ≤ g') :
    (slotName source g ≠ slotName source' g' ∧ SlotNameAccepted (slotName source g) ∧
      SlotNameAccepted (slotName source' g') ∧ ∀ slots keep,
        slotName source' g' ∉ staleSlots slots source keep ∧ slotName source' g' ∉ (dropSlots slots source keep).dropped) ↔
    folded source ≠ folded source' ∧ NameFits source g ∧ NameFits source' g' := by
  rw [slotAccepted_iff valid positive,slotAccepted_iff valid' positive']
  constructor
  · rintro ⟨_,fits,fits',kept⟩
    refine ⟨fun same => ?_,fits,fits'⟩
    have dropped : slotName source' g' ∈ staleSlots [(slotName source' g',false)] source none :=
      mem_staleSlots.mpr ⟨List.mem_singleton_self _,(ownSlot_iff positive').mpr same,by simp⟩
    exact (kept _ _).1 dropped
  · rintro ⟨other,fits,fits'⟩
    have unselected (slots : List (String × Bool)) (keep : Option String) : slotName source' g' ∉ staleSlots slots source keep :=
      fun inside => other ((ownSlot_iff positive').mp (mem_staleSlots.mp inside).2.1)
    exact ⟨fun same => other ((slotName_eq_iff positive positive').mp same).1,fits,fits',
      fun slots keep => ⟨unselected slots keep,unselected slots keep⟩⟩

theorem slots_separate_iff_branches : slotName "branch-001" 0 ≠ slotName "branch-002" 3 ∧
    ∀ slots keep, slotName "branch-002" 3 ∉ staleSlots slots "branch-001" keep := by
  obtain ⟨differ,_,_,kept⟩ := (slots_separate_iff "branch-001" "branch-002" 0 3 (by decide) (by decide) (by decide)
    (by decide)).mpr ⟨by decide,⟨by decide,by decide⟩,⟨by decide,by decide⟩⟩
  exact ⟨differ,fun slots keep => (kept slots keep).1⟩

/-- Ids that differ in '-' and '_' share their slots, and an id of 63 characters has no slot that PostgreSQL takes. -/
theorem slots_shared : sourceIdPattern "bank-a" = true ∧ sourceIdPattern "bank_a" = true ∧
    slotName "bank-a" 1 = slotName "bank_a" 1 ∧
    slotName "bank_a" 0 ∈ staleSlots [(slotName "bank_a" 0,false)] "bank-a" (some (slotName "bank-a" 1)) ∧
    sourceIdPattern (String.ofList (List.replicate 63 'a')) = true ∧
    ¬SlotNameAccepted (slotName (String.ofList (List.replicate 63 'a')) 0) := by
  refine ⟨by decide,by decide,by decide,mem_staleSlots.mpr (by decide),by decide,fun accepted => ?_⟩
  exact absurd accepted.2.1 (by decide)

end FineractBi.SourceNames

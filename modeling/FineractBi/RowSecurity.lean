import Mathlib.Algebra.BigOperators.Group.Multiset.Basic
import Mathlib.Algebra.Order.Ring.Unbundled.Rat
import Mathlib.Data.Finset.Lattice.Fold
import Mathlib.Data.Multiset.Lattice
import FineractBi.Lib.Calendar
import FineractBi.Routing

/-!
The secure datasets of the dashboards. Each is a query over a mart with the name
of the user written into it as a literal; it keeps the rows of the user's scope,
and the latest forms keep, of each source, one date. That date is one of the
source: all its offices decide it.
-/
namespace FineractBi.RowSecurity
open Calendar
open FineractBi.Routing (PgText)

def quote : Char := Char.ofNat 39

/-- `username | replace("'", "''")`. -/
def escape : List Char → List Char
  | [] => []
  | c :: rest => if c = quote then quote :: quote :: escape rest else c :: escape rest

/-- A string literal from behind its opening quote: its value and what follows. -/
def readLiteral : List Char → Option (List Char × List Char)
  | [] => none
  | c :: rest =>
    if c = quote then
      match rest with
      | [] => some ([],[])
      | d :: others =>
        if d = quote then (readLiteral others).map (fun read => (quote :: read.1,read.2)) else some ([],d :: others)
    else (readLiteral rest).map (fun read => (c :: read.1,read.2))

/-- The value of the quoted username in a query that goes on with `next`; a query with a zero
    character fails. -/
def usernameLiteral (currentUsername : Option String) (next : List Char) : Option String :=
  let username := currentUsername.getD ""
  if PgText username then (readLiteral (escape username.toList ++ quote :: next)).map (fun read => String.ofList read.1)
  else none

private theorem readLiteral_plain (c : Char) (rest : List Char) (plain : c ≠ quote) :
    readLiteral (c :: rest) = (readLiteral rest).map (fun read => (c :: read.1,read.2)) := by
  cases rest <;> simp [readLiteral,plain]

/-- The value ends at the quote behind it, unless another quote follows. -/
theorem readLiteral_escape (name next : List Char) (apart : next.head? ≠ some quote) :
    readLiteral (escape name ++ quote :: next) = some (name,next) := by
  induction name with
  | nil =>
    cases next with
    | nil => simp [escape,readLiteral]
    | cons c rest => simp [escape,readLiteral,show c ≠ quote by simpa using apart]
  | cons c rest ih =>
    by_cases quoted : c = quote
    · subst quoted
      simp [escape,readLiteral,ih]
    · simp [escape,readLiteral_plain,quoted,ih]

private theorem usernameLiteral_eq (currentUsername : Option String) (next : List Char) (apart : next.head? ≠ some quote) :
    usernameLiteral currentUsername next =
      if PgText (currentUsername.getD "") then some (currentUsername.getD "") else none := by
  simp [usernameLiteral,readLiteral_escape _ _ apart]

inductive Role
  | ADMIN | REGION_MANAGER | BRANCH_MANAGER | ANALYST
  deriving DecidableEq, Repr

/-- A row of `meta.user_office_mapping`. -/
structure Mapping where
  username : String
  roleName : Role
  region : Option String
  sourceId : Option String
  officeId : Option Int
  deriving DecidableEq, Repr

/-- What the scope reads of a row of `meta.source_registry`. -/
structure RegisteredSource where
  sourceId : String
  region : String
  deriving DecidableEq, Repr

structure AccessTables where
  mappings : List Mapping
  registry : List RegisteredSource

/-- `meta.v_user_access_scope`, without the role. -/
def userAccessScope (db : AccessTables) : List (String × String × Option Int) :=
  (db.mappings.filter (fun m => m.roleName ≠ .ADMIN ∧ (m.sourceId.isSome ∨ m.region.isSome))).flatMap (fun m =>
    (db.registry.filter (fun r => m.sourceId.all (· = r.sourceId) ∧ m.region.all (· = r.region))).map
      (fun r => (m.username,r.sourceId,m.officeId)))

/-- `meta.is_admin_user`. -/
def isAdminUser (db : AccessTables) (username : String) : Bool :=
  username ≠ "" && db.mappings.any (fun m => m.username = username && m.roleName = .ADMIN)

/-- `meta.user_scope`: pairs of a source and an office, NULL for all its offices. -/
def userScope (db : AccessTables) (username : String) : List (String × Option Int) :=
  if username = "" then []
  else ((userAccessScope db).filter (fun scope => scope.1 = username)).map (·.2)

/-- A row of a mart; `date` is its snapshot or reporting date, ⊥ for NULL, and `measures` its other
    columns. -/
structure MartRow (α : Type) where
  sourceId : Option String
  officeId : Option Int
  date : WithBot Date
  measures : α
  deriving DecidableEq

section
variable {α : Type} (db : AccessTables)

/-- The EXISTS over the scope. -/
def inUserScope (username : String) (row : MartRow α) : Bool :=
  (userScope db username).any (fun scope => some scope.1 = row.sourceId && (scope.2 = none || scope.2 = row.officeId))

/-- The condition on the user that all datasets share. -/
def visible (currentUsername : Option String) (row : MartRow α) : Bool :=
  match usernameLiteral currentUsername [' '], usernameLiteral currentUsername [')'] with
  | some compared, some argument =>
    compared ≠ "" && (isAdminUser db argument || inUserScope db argument row)
  | _, _ => false

/-- `(m.source_id, m.date) in (select source_id, date ...)` for one date a source. -/
def atDate (dateOf : String → WithBot Date) (row : MartRow α) : Bool :=
  match row.sourceId with
  | none => false
  | some source => row.date ≠ ⊥ && row.date = dateOf source

/-- The rows of a source, as the subqueries group them. -/
def ofSource (mart : Multiset (MartRow α)) (source : String) : Multiset (MartRow α) :=
  mart.filter (fun row => row.sourceId = some source)

/-- max(date). -/
def maxDate (rows : Multiset (MartRow α)) : WithBot Date := (rows.map (·.date)).sup

/-- `reporting_date <= current_date`. -/
def due (today : Date) (row : MartRow α) : Bool := (show Option Date from row.date).any (· ≤ today)

/-- `sum(par_30_amount) > 0` of one date. -/
def hasPar (par30Amount : α → Option ℚ) (rows : Multiset (MartRow α)) (date : WithBot Date) : Bool :=
  0 < ((rows.filter (fun row => row.date = date)).map (fun row => (par30Amount row.measures).getD 0)).sum

/-- `coalesce(max(date) filter (where has_par), max(date))`. -/
def parDate (par30Amount : α → Option ℚ) (rows : Multiset (MartRow α)) : WithBot Date :=
  let dates := maxDate (rows.filter (fun row => hasPar par30Amount rows row.date))
  if dates = ⊥ then maxDate rows else dates

variable (currentUsername : Option String) (today : Date) (par30Amount : α → Option ℚ) (mart : Multiset (MartRow α))

def portfolioHealthSecureAllDates : Multiset (MartRow α) := mart.filter (fun m => visible db currentUsername m)

def portfolioHealthSecureLatest : Multiset (MartRow α) :=
  mart.filter (fun m => atDate (fun source => maxDate (ofSource mart source)) m && visible db currentUsername m)

def repaymentBehaviorSecureAllDates : Multiset (MartRow α) :=
  mart.filter (fun m => due today m && visible db currentUsername m)

def repaymentBehaviorSecureLatest : Multiset (MartRow α) :=
  mart.filter (fun m => atDate (fun source => maxDate ((ofSource mart source).filter (fun row => due today row))) m &&
    visible db currentUsername m)

def delinquencyParSecureAllDates : Multiset (MartRow α) := mart.filter (fun m => visible db currentUsername m)

def delinquencyParSecureLatest : Multiset (MartRow α) :=
  mart.filter (fun m => atDate (fun source => parDate par30Amount (ofSource mart source)) m &&
    visible db currentUsername m)

inductive Dataset
  | portfolioHealthAllDates | portfolioHealthLatest
  | repaymentBehaviorAllDates | repaymentBehaviorLatest
  | delinquencyParAllDates | delinquencyParLatest
  deriving DecidableEq, Repr

def Dataset.rows : Dataset → Multiset (MartRow α)
  | .portfolioHealthAllDates => portfolioHealthSecureAllDates db currentUsername mart
  | .portfolioHealthLatest => portfolioHealthSecureLatest db currentUsername mart
  | .repaymentBehaviorAllDates => repaymentBehaviorSecureAllDates db currentUsername today mart
  | .repaymentBehaviorLatest => repaymentBehaviorSecureLatest db currentUsername today mart
  | .delinquencyParAllDates => delinquencyParSecureAllDates db currentUsername mart
  | .delinquencyParLatest => delinquencyParSecureLatest db currentUsername par30Amount mart

/-- The date that a latest form shows of a source; an all-dates form picks none. -/
def Dataset.shownDate (source : String) : Dataset → Option (WithBot Date)
  | .portfolioHealthAllDates | .repaymentBehaviorAllDates | .delinquencyParAllDates => none
  | .portfolioHealthLatest => some (maxDate (ofSource mart source))
  | .repaymentBehaviorLatest => some (maxDate ((ofSource mart source).filter (fun row => due today row)))
  | .delinquencyParLatest => some (parDate par30Amount (ofSource mart source))

/-- The row condition of a dataset besides the one on the user. -/
def Dataset.selects (dataset : Dataset) (row : MartRow α) : Bool :=
  match dataset with
  | .portfolioHealthAllDates | .delinquencyParAllDates => true
  | .repaymentBehaviorAllDates => due today row
  | _ => atDate (fun source => (dataset.shownDate today par30Amount mart source).getD ⊥) row

private theorem rows_eq (dataset : Dataset) : dataset.rows db currentUsername today par30Amount mart =
    mart.filter (fun row => dataset.selects today par30Amount mart row && visible db currentUsername row) := by
  cases dataset <;> simp [Dataset.rows,Dataset.selects,Dataset.shownDate,portfolioHealthSecureAllDates,
    portfolioHealthSecureLatest,repaymentBehaviorSecureAllDates,repaymentBehaviorSecureLatest,
    delinquencyParSecureAllDates,delinquencyParSecureLatest]

/-- The rows that a user may see. -/
def InScope (username : String) (row : MartRow α) : Prop :=
  isAdminUser db username = true ∨
    ∃ scope ∈ userScope db username, some scope.1 = row.sourceId ∧ (scope.2 = none ∨ scope.2 = row.officeId)

instance (username : String) : DecidablePred (InScope (α := α) db username) := fun _ => inferInstanceAs (Decidable (_ ∨ _))

/-- A source of which a user sees some offices only. -/
def PartlyInScope (username source : String) : Prop :=
  isAdminUser db username = false ∧ (∃ office, (source,some office) ∈ userScope db username) ∧
    (source,none) ∉ userScope db username

/-- The mapping has a row of the user. -/
def Mapped (username : String) : Prop := ∃ mapping ∈ db.mappings, mapping.username = username

private theorem inUserScope_iff (username : String) (row : MartRow α) : inUserScope db username row = true ↔
    ∃ scope ∈ userScope db username, some scope.1 = row.sourceId ∧ (scope.2 = none ∨ scope.2 = row.officeId) := by
  simp [inUserScope]

/-- What the mapping grants: its office, or NULL for all, in every registered source of its source id and region,
    where NULL stands for any; a mapping of neither grants nothing, and an administrator's is not a scope. -/
theorem mem_userScope (username source : String) (office : Option Int) : (source,office) ∈ userScope db username ↔
    username ≠ "" ∧ ∃ m ∈ db.mappings, m.username = username ∧ m.roleName ≠ .ADMIN ∧
      (m.sourceId.isSome ∨ m.region.isSome) ∧ m.officeId = office ∧
      ∃ r ∈ db.registry, r.sourceId = source ∧ (∀ id ∈ m.sourceId, id = source) ∧ ∀ region ∈ m.region, region = r.region := by
  by_cases empty : username = ""
  · simp [userScope,empty]
  · simp only [userScope,empty,if_false,userAccessScope,List.mem_map,List.mem_filter,List.mem_flatMap,decide_eq_true_eq,
      ne_eq,not_false_eq_true,true_and,Option.all_eq_true]
    constructor
    · rintro ⟨_,⟨⟨m,⟨mapped,role,qualified⟩,r,⟨registered,fits_source,fits_region⟩,rfl⟩,same⟩,pair⟩
      obtain ⟨rfl,rfl⟩ := Prod.mk.inj pair
      exact ⟨m,mapped,same,role,qualified,rfl,r,registered,rfl,fits_source,fits_region⟩
    · rintro ⟨m,mapped,same,role,qualified,rfl,r,registered,rfl,fits_source,fits_region⟩
      exact ⟨_,⟨⟨m,⟨mapped,role,qualified⟩,r,⟨registered,fits_source,fits_region⟩,rfl⟩,same⟩,rfl⟩

private theorem inScope_mapped (username : String) (row : MartRow α) (inScope : InScope db username row) :
    username ≠ "" ∧ Mapped db username := by
  rcases inScope with admin | ⟨⟨source,office⟩,member,_⟩
  · simp only [isAdminUser,Bool.and_eq_true,decide_eq_true_eq,List.any_eq_true] at admin
    obtain ⟨named,mapping,mapped,same,_⟩ := admin
    exact ⟨named,mapping,mapped,same⟩
  · obtain ⟨named,mapping,mapped,same,_⟩ := (mem_userScope db username source office).mp member
    exact ⟨named,mapping,mapped,same⟩

/-- What the datasets check of the user is the scope, for a name that can be text. -/
theorem visible_iff (row : MartRow α) : visible db currentUsername row = true ↔
    PgText (currentUsername.getD "") ∧ InScope db (currentUsername.getD "") row := by
  have space : ([' '] : List Char).head? ≠ some quote := by decide
  have bracket : ([')'] : List Char).head? ≠ some quote := by decide
  simp only [visible,usernameLiteral_eq _ _ space,usernameLiteral_eq _ _ bracket]
  by_cases text : PgText (currentUsername.getD "")
  · simp only [text,if_true,true_and,Bool.and_eq_true,Bool.or_eq_true,decide_eq_true_eq,inUserScope_iff]
    exact ⟨fun checked => checked.2,fun inScope => ⟨(inScope_mapped db _ _ inScope).1,inScope⟩⟩
  · simp [text]

section
variable {mart' : Multiset (MartRow α)}

private theorem ofSource_wide (username source : String) (wide : (source,none) ∈ userScope db username)
    (agree : mart.filter (InScope db username) = mart'.filter (InScope db username)) :
    ofSource mart source = ofSource mart' source := by
  have within (m : Multiset (MartRow α)) :
      (m.filter (InScope db username)).filter (fun row => row.sourceId = some source) = ofSource m source := by
    rw [ofSource,Multiset.filter_filter]
    refine Multiset.filter_congr (fun row _ => ⟨fun both => both.1,fun same => ⟨same,?_⟩⟩)
    exact Or.inr ⟨_,wide,same.symm,Or.inl rfl⟩
  rw [← within mart,← within mart',agree]

private theorem shownDate_congr (dataset : Dataset) (source : String) (same : ofSource mart source = ofSource mart' source) :
    dataset.shownDate today par30Amount mart source = dataset.shownDate today par30Amount mart' source := by
  cases dataset <;> simp [Dataset.shownDate,same]

/-- The date of a source that has a row in scope is the same in both contents. -/
theorem shownDate_agree (dataset : Dataset) (username source : String) (row : MartRow α)
    (agree : mart.filter (InScope db username) = mart'.filter (InScope db username))
    (dates : ∀ source, PartlyInScope db username source →
      dataset.shownDate today par30Amount mart source = dataset.shownDate today par30Amount mart' source)
    (inScope : InScope db username row) (named : row.sourceId = some source) :
    dataset.shownDate today par30Amount mart source = dataset.shownDate today par30Amount mart' source := by
  by_cases admin : isAdminUser db username = true
  · have everything (m : Multiset (MartRow α)) : m.filter (InScope db username) = m :=
      Multiset.filter_eq_self.mpr (fun _ _ => Or.inl admin)
    rw [everything,everything] at agree
    rw [agree]
  · by_cases wide : (source,none) ∈ userScope db username
    · exact shownDate_congr today par30Amount mart dataset source (ofSource_wide db mart username source wide agree)
    · rcases inScope with granted | ⟨⟨source',office⟩,member,sameSource,_⟩
      · exact absurd granted admin
      · obtain rfl : source' = source := by simpa [named] using sameSource
        cases office with
        | none => exact absurd member wide
        | some office => exact dates _ ⟨by simpa using admin,⟨office,member⟩,wide⟩

private theorem selects_agree (dataset : Dataset) (username : String) (row : MartRow α)
    (agree : mart.filter (InScope db username) = mart'.filter (InScope db username))
    (dates : ∀ source, PartlyInScope db username source →
      dataset.shownDate today par30Amount mart source = dataset.shownDate today par30Amount mart' source)
    (inScope : InScope db username row) :
    dataset.selects today par30Amount mart row = dataset.selects today par30Amount mart' row := by
  have latest : atDate (fun source => (dataset.shownDate today par30Amount mart source).getD ⊥) row =
      atDate (fun source => (dataset.shownDate today par30Amount mart' source).getD ⊥) row := by
    cases named : row.sourceId with
    | none => simp [atDate,named]
    | some source =>
      simp [atDate,named,shownDate_agree db today par30Amount mart dataset username source row agree dates inScope named]
  cases dataset with
  | portfolioHealthAllDates | repaymentBehaviorAllDates | delinquencyParAllDates => rfl
  | portfolioHealthLatest | repaymentBehaviorLatest | delinquencyParLatest => exact latest

end

/-- The secure datasets over two contents that agree in the scope of the user, and on the date that
    a latest form shows of a source of which the user sees some offices only. -/
theorem secure_datasets (dataset : Dataset) (mart' : Multiset (MartRow α))
    (agree : mart.filter (InScope db (currentUsername.getD "")) = mart'.filter (InScope db (currentUsername.getD "")))
    (dates : ∀ source, PartlyInScope db (currentUsername.getD "") source →
      dataset.shownDate today par30Amount mart source = dataset.shownDate today par30Amount mart' source) :
    dataset.rows db currentUsername today par30Amount mart = dataset.rows db currentUsername today par30Amount mart' ∧
      (∀ row ∈ dataset.rows db currentUsername today par30Amount mart, InScope db (currentUsername.getD "") row) ∧
      (currentUsername.getD "" = "" ∨ ¬Mapped db (currentUsername.getD "") →
        dataset.rows db currentUsername today par30Amount mart = 0) := by
  have confined : ∀ row ∈ dataset.rows db currentUsername today par30Amount mart,
      InScope db (currentUsername.getD "") row := by
    intro row member
    rw [rows_eq,Multiset.mem_filter] at member
    exact ((visible_iff db currentUsername row).mp ((Bool.and_eq_true _ _).mp member.2).2).2
  have within (m : Multiset (MartRow α)) : dataset.rows db currentUsername today par30Amount m =
      (m.filter (InScope db (currentUsername.getD ""))).filter (fun row =>
        dataset.selects today par30Amount m row && visible db currentUsername row) := by
    rw [rows_eq,Multiset.filter_filter]
    refine Multiset.filter_congr (fun row _ => ⟨fun shown => ⟨shown,?_⟩,fun both => both.1⟩)
    exact ((visible_iff db currentUsername row).mp ((Bool.and_eq_true _ _).mp shown).2).2
  refine ⟨?_,confined,fun unknown => Multiset.eq_zero_of_forall_notMem (fun row member => ?_)⟩
  · rw [within,within,← agree]
    refine Multiset.filter_congr (fun row member => ?_)
    rw [selects_agree db today par30Amount mart dataset _ row agree dates (Multiset.mem_filter.mp member).2]
  · obtain ⟨named,mapped⟩ := inScope_mapped db _ row (confined row member)
    exact unknown.elim named (fun missing => missing mapped)

end

/-- The mapping that a new warehouse has. -/
def seeded : AccessTables where
  mappings := [⟨"admin",.ADMIN,none,none,none⟩,⟨"north_manager",.BRANCH_MANAGER,none,some "default",some 101⟩,
    ⟨"south_manager",.BRANCH_MANAGER,none,some "default",some 102⟩]
  registry := [⟨"default","default"⟩]

def officeRow (office : Int) (day : Date) : MartRow Unit := ⟨some "default",some office,(day : WithBot Date),()⟩

/-- A newer row of office 102 takes the only row of office 101 out of the latest form. -/
theorem newer_row_of_another_office :
    let mart : Multiset (MartRow Unit) := {officeRow 101 1,officeRow 102 1}
    let mart' : Multiset (MartRow Unit) := {officeRow 101 1,officeRow 102 2}
    mart.filter (InScope seeded "north_manager") = mart'.filter (InScope seeded "north_manager") ∧
      Dataset.portfolioHealthLatest.rows seeded (some "north_manager") 2 (fun _ => none) mart = {officeRow 101 1} ∧
      Dataset.portfolioHealthLatest.rows seeded (some "north_manager") 2 (fun _ => none) mart' = 0 := by
  intro mart mart'
  decide +kernel

/-- The other office may change as long as the date of the source stays. -/
theorem secure_datasets_same_date :
    let mart : Multiset (MartRow Unit) := {officeRow 101 1,officeRow 102 1}
    let mart' : Multiset (MartRow Unit) := {officeRow 101 1,officeRow 103 1,officeRow 104 0}
    Dataset.portfolioHealthLatest.rows seeded (some "north_manager") 2 (fun _ => none) mart =
        Dataset.portfolioHealthLatest.rows seeded (some "north_manager") 2 (fun _ => none) mart' ∧
      ∀ row ∈ Dataset.portfolioHealthLatest.rows seeded (some "north_manager") 2 (fun _ => none) mart,
        InScope seeded "north_manager" row := by
  intro mart mart'
  have scope : userScope seeded "north_manager" = [("default",some 101)] := by decide +kernel
  have result := secure_datasets seeded (some "north_manager") 2 (fun _ => none) mart .portfolioHealthLatest mart'
    (by decide +kernel) (fun source partly => by
      obtain ⟨_,⟨office,member⟩,_⟩ := partly
      obtain ⟨rfl,_⟩ : source = "default" ∧ office = 101 := by simpa [scope] using member
      decide +kernel)
  exact ⟨result.1,result.2.1⟩

end FineractBi.RowSecurity

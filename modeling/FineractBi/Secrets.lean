import FineractBi.Registry
import FineractBi.SourceNames
import FineractBi.StateMachine

/-!
Secret references (secrets.py): what a reference names, and when a source may use it. An
environment variable is bound to a source by its name, a file by its directory; references
listed in FBI_SHARED_SECRET_REFS are free to all.
-/
namespace FineractBi.Secrets
open FineractBi.Registry FineractBi.SourceNames
open FineractBi.StateMachine (isSpace)

/-- The text that a pattern with `$` at its end accepts: a last line feed is left out. -/
def upToEnd (accepts : List Char → Bool) (text : List Char) : Option (List Char) :=
  if accepts text then some text
  else if text.getLast? = some '\n' ∧ accepts text.dropLast then some text.dropLast
  else none

/-- `str.startswith`, and the rest. -/
def after (start : String) (text : List Char) : Option (List Char) :=
  if start.toList.isPrefixOf text then some (text.drop start.length) else none

def letter (c : Char) : Bool := ('a' ≤ c ∧ c ≤ 'z') ∨ ('A' ≤ c ∧ c ≤ 'Z')
def plainDigit (c : Char) : Bool := '0' ≤ c ∧ c ≤ '9'

def identifier : List Char → Bool
  | [] => false
  | c :: rest => (letter c || c = '_') && rest.all (fun c => letter c || plainDigit c || c = '_')

/-- The name of the variable that `_ENV` finds. -/
def envName (ref : String) : Option String :=
  ((after "env:" ref.toList).bind (upToEnd identifier)).map String.ofList

/-- A key of a file. -/
def fileKey (text : List Char) : Bool :=
  !text.isEmpty && text.all (fun c => letter c || plainDigit c || c = '_' || c = '.' || c = '-')

/-- The path and the key that `_FILE` finds. -/
def fileRef (ref : String) : Option (String × String) := do
  let body ← after "file:" ref.toList
  let path := body.takeWhile (· ≠ ':')
  let key ← after ":" (body.dropWhile (· ≠ ':'))
  let key ← upToEnd fileKey key
  if path.head? = some '/' ∧ 2 ≤ path.length then some (String.ofList path,String.ofList key) else none

/-- What the process reads: variables, paths as their canonical components, and the lines of files. `allowed`
    matches a name against FBI_SECRET_ENV_ALLOWLIST. -/
structure Environment where
  allowed : String → Bool
  sharedSecretRefs : String
  secretDir : Option String
  getenv : String → Option String
  realpath : String → List String
  lines : String → Option (List String)

/-- `str.strip`. -/
def strip (text : List Char) : List Char := ((text.dropWhile isSpace).reverse.dropWhile isSpace).reverse

/-- `_shared`. -/
def shared (env : Environment) (ref : String) : Bool :=
  (((env.sharedSecretRefs.toList.splitOn ',').map strip).filter (!·.isEmpty)).contains ref.toList

/-- `_under`: the common path of the base and the path is the base. -/
def under (env : Environment) (base path : String) : Bool := (env.realpath base).isPrefixOf (env.realpath path)

/-- `os.path.join` of a directory and a source id. -/
def joinPath (base source : String) : String :=
  if source.toList.head? = some '/' then source
  else if base = "" ∨ base.toList.getLast? = some '/' then base ++ source
  else base ++ "/" ++ source

/-- `bound_env_name`. -/
def boundEnvName (source : String) : String :=
  "FBI_SRC_" ++ String.ofList (((source.toList.map Char.toUpper).flatMap (fun c => if c = '_' then ['_','_'] else [c])).map
    (fun c => if c = '-' then '_' else c)) ++ "_PASSWORD"

/-- `check_reference` on a variable. -/
def checkVariable (env : Environment) (ref source name : String) : Except String Unit :=
  if !env.allowed name then throw ("Environment variable " ++ name ++ " is not allowed in a secret_ref " ++
    "(see FBI_SECRET_ENV_ALLOWLIST; source credentials should use the FBI_SRC_ prefix)")
  else if !shared env ref ∧ name ≠ boundEnvName source then throw ("Source " ++ source ++ " may only use env:" ++
    boundEnvName source ++ " (each secret is bound to its own source; see FBI_SHARED_SECRET_REFS for development)")
  else pure ()

/-- `check_reference` on a file. -/
def checkFile (env : Environment) (ref source path : String) : Except String Unit :=
  match env.secretDir.filter (· ≠ "") with
  | none => throw ("Secret file " ++ path ++ " is outside FBI_SECRET_DIR or FBI_SECRET_DIR is not set")
  | some base =>
    if !under env base path then
      throw ("Secret file " ++ path ++ " is outside FBI_SECRET_DIR or FBI_SECRET_DIR is not set")
    else if !shared env ref ∧ !under env (joinPath base source) path then
      throw ("Source " ++ source ++ " may only read secret files below FBI_SECRET_DIR/" ++ source ++ "/")
    else pure ()

/-- `check_reference`. -/
def checkReference (env : Environment) (ref : Option String) (source : String) : Except String Unit :=
  match ref.filter (· ≠ "") with
  | none => throw "No secret_ref configured for this source"
  | some ref =>
    match envName ref,fileRef ref with
    | some name,_ => checkVariable env ref source name
    | none,some (path,_) => checkFile env ref source path
    | none,none => throw ("Unsupported secret_ref format: " ++ String.ofList (ref.toList.takeWhile (· ≠ ':')) ++
        ":... (use env: or file:)")

/-- The value of a key in the lines of a properties file. -/
def lookup (key : String) (lines : List String) : Option String :=
  lines.findSome? (fun line =>
    let stripped := strip line.toList
    if stripped = [] ∨ stripped.head? = some '#' ∨ '=' ∉ stripped then none
    else if strip (stripped.takeWhile (· ≠ '=')) = key.toList
      then some (String.ofList (strip ((stripped.dropWhile (· ≠ '=')).drop 1)))
    else none)

/-- The text of a canonical path. -/
def pathText (components : List String) : String := "/" ++ String.intercalate "/" components

/-- `resolve`. -/
def resolve (env : Environment) (ref : Option String) (source : String) : Except String String := do
  checkReference env ref source
  match envName (ref.getD ""),fileRef (ref.getD "") with
  | some name,_ =>
    match env.getenv name with
    | none => throw ("Environment variable " ++ name ++ " referenced by secret_ref is not set")
    | some value => pure value
  | none,some (path,key) =>
    match env.lines (pathText (env.realpath path)) with
    | none => throw ("No such file or directory: " ++ path)
    | some lines =>
      match lookup key lines with
      | none => throw ("Key " ++ key ++ " not found in " ++ path)
      | some value => pure value
  | none,none => throw "unreachable"

/-- `connect_placeholder`. -/
def connectPlaceholder (env : Environment) (ref : Option String) (source : String) : Except String String := do
  checkReference env ref source
  match envName (ref.getD ""),fileRef (ref.getD "") with
  | some name,_ => pure ("$\x7benv:" ++ name ++ "\x7d")
  | none,some (path,key) => pure ("$\x7bfile:" ++ pathText (env.realpath path) ++ ":" ++ key ++ "\x7d")
  | none,none => throw "unreachable"

/-- The id with every '_' written as two '-'. -/
def dashed (source : String) : List Char := source.toList.flatMap (fun c => if c = '_' then ['-','-'] else [c])

/-- What a character of an id becomes in the name. -/
def nameChars (c : Char) : List Char :=
  (if c.toUpper = '_' then ['_','_'] else [c.toUpper]).map (fun c => if c = '-' then '_' else c)

/-- Read back, with '-' for '_'. -/
def readBack (c : Char) : Char := if c = '_' then '-' else c.toLower

def written (c : Char) : Char := if c = '-' then '_' else c.toUpper

private theorem nameChars_spec {c : Char} (part : idPart c = true ∨ c = '\n') :
    nameChars c = (if c = '_' then ['-','-'] else [c]).map written ∧
      (nameChars c).map readBack = if c = '_' then ['-','-'] else [c] := by
  have table : ∀ n < 128, idPart (Char.ofNat n) = true ∨ Char.ofNat n = '\n' →
      nameChars (Char.ofNat n) = (if Char.ofNat n = '_' then ['-','-'] else [Char.ofNat n]).map written ∧
        (nameChars (Char.ofNat n)).map readBack = if Char.ofNat n = '_' then ['-','-'] else [Char.ofNat n] := by
    decide
  have small : c.toNat < 128 := by
    rcases part with part | rfl
    · simp only [idPart,idStart,Bool.decide_or,Bool.or_eq_true,decide_eq_true_eq,Char.le_def,UInt32.le_iff_toNat_le] at part
      rcases part with (letter | digit) | rfl | rfl
      · exact lt_of_le_of_lt letter.2 (by decide)
      · exact lt_of_le_of_lt digit.2 (by decide)
      · decide
      · decide
    · decide
  have own := table c.toNat small
  rw [Char.ofNat_toNat] at own
  exact own part

/-- The middle of a bound name, character by character. -/
theorem boundEnvName_toList (source : String) : (boundEnvName source).toList =
    "FBI_SRC_".toList ++ source.toList.flatMap nameChars ++ "_PASSWORD".toList := by
  have text (chars : List Char) (f : Char → Char) : (String.ofList (chars.map f)).toList = chars.map f := String.toList_ofList
  rw [boundEnvName,String.toList_append,String.toList_append,text,List.map_flatMap,List.flatMap_map]
  rfl

/-- Two ids have the same variable exactly when they are the same with every '_' written as two '-'. -/
theorem boundEnvName_eq_iff {source source' : String} (valid : sourceIdPattern source = true)
    (valid' : sourceIdPattern source' = true) : boundEnvName source = boundEnvName source' ↔ dashed source = dashed source' := by
  have middle (source : String) (valid : sourceIdPattern source = true) :
      source.toList.flatMap nameChars = (dashed source).map written ∧
        (source.toList.flatMap nameChars).map readBack = dashed source := by
    rw [dashed,List.map_flatMap,List.map_flatMap]
    exact ⟨List.flatMap_congr (fun c inside => (nameChars_spec (sourceId_chars valid c inside)).1),
      List.flatMap_congr (fun c inside => (nameChars_spec (sourceId_chars valid c inside)).2)⟩
  constructor
  · intro same
    have texts := congrArg String.toList same
    rw [boundEnvName_toList,boundEnvName_toList] at texts
    have names := List.append_cancel_left (List.append_cancel_right texts)
    rw [← (middle source valid).2,names,(middle source' valid').2]
  · intro same
    refine String.toList_injective ?_
    rw [boundEnvName_toList,boundEnvName_toList,(middle source valid).1,(middle source' valid').1,same]

section
variable {env : Environment} {ref source name path key : String}

/-- A source is registered with a reference, resolves it, or has it rendered into a connector configuration. -/
def Uses (env : Environment) (source ref : String) : Prop :=
  (∃ r : SourceRecord, r.sourceId = source ∧ r.secretRef = some ref ∧
    r.validate (fun ref source => checkReference env (some ref) source) = .ok ()) ∨
  (∃ value, resolve env (some ref) source = .ok value) ∨ ∃ placeholder, connectPlaceholder env (some ref) source = .ok placeholder

private theorem uses_checked (uses : Uses env source ref) (some_ref : ref ≠ "") : checkReference env (some ref) source = .ok () := by
  rcases uses with ⟨r,rfl,named,valid⟩ | ⟨value,resolved⟩ | ⟨placeholder,rendered⟩
  · cases checked : checkReference env (some ref) r.sourceId with
    | ok _ => rfl
    | error reason =>
      cases shaped : sourceIdPattern r.sourceId with
      | false =>
        simp [SourceRecord.validate,shaped,throw,throwThe,MonadExceptOf.throw,bind,Except.bind] at valid
      | true =>
        simp [SourceRecord.validate,shaped,named,some_ref,checked,throw,throwThe,MonadExceptOf.throw] at valid
  · obtain ⟨⟨⟩,checked,_⟩ := StateMachine.except_bind resolved
    exact checked
  · obtain ⟨⟨⟩,checked,_⟩ := StateMachine.except_bind rendered
    exact checked

private theorem envName_some (found : envName ref = some name) : ref ≠ "" := by
  have empty : envName "" = none := rfl
  rintro rfl
  cases empty.symm.trans found

private theorem fileRef_some (found : fileRef ref = some (path,key)) : ref ≠ "" := by
  have empty : fileRef "" = none := rfl
  rintro rfl
  cases empty.symm.trans found

/-- A variable that is not shared is the one of the source. -/
theorem variable_bound (found : envName ref = some name) (unshared : shared env ref = false)
    (checked : checkReference env (some ref) source = .ok ()) : name = boundEnvName source := by
  simp only [checkReference,Option.filter_some,envName_some found,ne_eq,not_false_eq_true,decide_true,if_true,found,
    checkVariable,unshared,Bool.not_false,true_and] at checked
  split at checked
  · cases checked
  · split at checked
    · cases checked
    · next own => exact not_not.mp own

/-- A file that is not shared lies under the directory of the source. -/
theorem file_bound (no_variable : envName ref = none) (found : fileRef ref = some (path,key))
    (unshared : shared env ref = false)
    (checked : checkReference env (some ref) source = .ok ()) :
    ∃ base, env.secretDir = some base ∧ under env (joinPath base source) path = true := by
  simp only [checkReference,Option.filter_some,fileRef_some found,ne_eq,not_false_eq_true,decide_true,if_true,no_variable,found,
    checkFile,unshared,Bool.not_false,true_and] at checked
  split at checked
  · cases checked
  · next base at_dir =>
    obtain ⟨dir,_⟩ := Option.filter_eq_some_iff.mp at_dir
    split at checked
    · cases checked
    · split at checked
      · cases checked
      · next own => exact ⟨base,dir,by simpa using own⟩

end

/-- Two sources are bound to different variables, and so no variable that is not shared is accepted for both or used by
    one as the other's, exactly when their ids differ with every '_' written as two '-'. A file that is not shared is
    in any case under the directory of the source that uses it. -/
theorem secrets_bound_iff (source source' : String) (valid : sourceIdPattern source = true)
    (valid' : sourceIdPattern source' = true) :
    ((boundEnvName source ≠ boundEnvName source' ∧ ∀ env ref name, envName ref = some name → shared env ref = false →
        ¬(checkReference env (some ref) source = .ok () ∧ checkReference env (some ref) source' = .ok ()) ∧
        (Uses env source ref → name ≠ boundEnvName source')) ↔ dashed source ≠ dashed source') ∧
    ∀ env ref path key, envName ref = none → fileRef ref = some (path,key) → shared env ref = false → Uses env source ref →
      ∃ base, env.secretDir = some base ∧ under env (joinPath base source) path = true := by
  refine ⟨⟨?_,?_⟩,?_⟩
  · rintro ⟨differ,_⟩ same
    exact differ ((boundEnvName_eq_iff valid valid').mpr same)
  · intro other
    have differ : boundEnvName source ≠ boundEnvName source' :=
      fun same => other ((boundEnvName_eq_iff valid valid').mp same)
    refine ⟨differ,fun env ref name found unshared => ⟨?_,fun uses own => ?_⟩⟩
    · rintro ⟨checked,checked'⟩
      exact differ ((variable_bound found unshared checked).symm.trans (variable_bound found unshared checked'))
    · exact differ ((variable_bound found unshared (uses_checked uses (envName_some found))).symm.trans own)
  · intro env ref path key no_variable found unshared uses
    exact file_bound no_variable found unshared (uses_checked uses (fileRef_some found))

theorem secrets_bound_iff_banks : boundEnvName "bank-a" ≠ boundEnvName "bank_a" ∧
    ∀ env, shared env "env:FBI_SRC_BANK_A_PASSWORD" = false →
      ¬Uses env "bank_a" "env:FBI_SRC_BANK_A_PASSWORD" := by
  obtain ⟨differ,bound⟩ := (secrets_bound_iff "bank_a" "bank-a" (by decide) (by decide)).1.mpr (by decide)
  exact ⟨differ.symm,fun env unshared uses => (bound env _ "FBI_SRC_BANK_A_PASSWORD" rfl unshared).2 uses (by decide)⟩

/-- Every name is allowed, no reference is shared and no variable set. -/
def openEnvironment : Environment := ⟨fun _ => true,"",none,fun _ => none,fun _ => [],fun _ => none⟩

/-- The password of the source "a_b" is accepted for the source "a--b". -/
theorem secret_shared : sourceIdPattern "a_b" = true ∧ sourceIdPattern "a--b" = true ∧
    boundEnvName "a_b" = boundEnvName "a--b" ∧ ∃ env, shared env "env:FBI_SRC_A__B_PASSWORD" = false ∧
      checkReference env (some "env:FBI_SRC_A__B_PASSWORD") "a_b" = .ok () ∧
      checkReference env (some "env:FBI_SRC_A__B_PASSWORD") "a--b" = .ok () :=
  ⟨by decide,by decide,by decide,openEnvironment,by decide,by decide,by decide⟩

end FineractBi.Secrets

import StatusBoard.Proofs.Condition.Checks
import StatusBoard.Proofs.Kind
import StatusBoard.Proofs.Text.Blank
import StatusBoard.Proofs.Text.Digits
import StatusBoard.Service.Board
set_option autoImplicit false

/-!
# Settings: which layer decides

Each setting is what the environment says, or else what the file says, or else the default.  Here it is
said without reading any layer what each of them says, what comes of the three together, which settings
can be run with, and which fault is the first.  Settings are loaded exactly so.
-/

namespace StatusBoard

/-! ## Kinds -/

namespace KindRegistry

/-- A kind and its mandatory types have names of the right shape. -/
def IsWellNamed (entry : String × KindSpec) : Prop :=
  isPascalCase entry.1 = true ∧ ∀ type ∈ entry.2.mandatory, isPascalCase type = true

/-- The first name of a kind that has a wrong shape: its own, or else one of its mandatory types. -/
inductive FirstMisnomer (entry : String × KindSpec) : ValidationError → Prop where
  | kind (hkind : isPascalCase entry.1 = false) : FirstMisnomer entry (.unknownKind entry.1)
  | type {before : List String} {type : String} {after : List String}
      (hkind : isPascalCase entry.1 = true) (hsplit : entry.2.mandatory = before ++ type :: after)
      (hbefore : ∀ other ∈ before, isPascalCase other = true) (htype : isPascalCase type = false) :
      FirstMisnomer entry (.invalidConditionType type)

theorem checkKind_eq_ok_iff {entry : String × KindSpec} :
    checkKind entry.1 entry.2 = .ok () ↔ IsWellNamed entry := by
  unfold checkKind
  rw [check_bind_eq_ok_iff, checkAll_eq_ok_iff]
  simp only [checkConditionType_eq_ok_iff, IsWellNamed, checkKindName, ite_eq_left_iff, reduceCtorEq,
    imp_false, Bool.not_eq_true, Bool.not_eq_false]

theorem checkKind_eq_error_iff {entry : String × KindSpec} {e : ValidationError} :
    checkKind entry.1 entry.2 = .error e ↔ FirstMisnomer entry e := by
  have hname : checkKind entry.1 entry.2 =
      if isPascalCase entry.1 then checkAll checkConditionType entry.2.mandatory
      else .error (.unknownKind entry.1) := by
    unfold checkKind checkKindName
    split <;> rfl
  rw [hname]
  constructor
  · intro h
    split at h
    · rename_i hkind
      obtain ⟨before, type, after, hsplit, hbefore, hfault⟩ := checkAll_eq_error_iff.mp h
      obtain ⟨htype, rfl⟩ := checkConditionType_eq_error_iff.mp hfault
      exact .type hkind hsplit (fun other hother => checkConditionType_eq_ok_iff.mp (hbefore other hother))
        htype
    · rename_i hkind
      cases h
      exact .kind (by simpa using hkind)
  · rintro (hkind | ⟨hkind, hsplit, hbefore, htype⟩)
    · rw [if_neg (by simp [hkind])]
    · rw [if_pos hkind, checkAll_eq_error_iff]
      exact ⟨_, _, _, hsplit, fun other hother => checkConditionType_eq_ok_iff.mpr (hbefore other hother),
        checkConditionType_eq_error_iff.mpr ⟨htype, rfl⟩⟩

/-- One mandatory set for every kind: the kinds stay, and each of them has that set. -/
theorem setMandatoryEverywhere_eq_ok_iff {kinds changed : KindRegistry} {types : List String} :
    kinds.setMandatoryEverywhere types = .ok changed ↔
      (∀ type ∈ types, isPascalCase type = true) ∧ Dict.keys changed.kinds = Dict.keys kinds.kinds ∧
        ∀ entry ∈ changed.kinds, entry.2.mandatory = types := by
  have hvalue : ∀ spec : KindSpec, spec = ⟨types⟩ ↔ spec.mandatory = types := fun spec =>
    ⟨fun h => h ▸ rfl, fun h => h ▸ rfl⟩
  have hchanged : (⟨kinds.kinds.map fun entry => (entry.1, ⟨types⟩)⟩ : KindRegistry) = changed ↔
      Dict.keys changed.kinds = Dict.keys kinds.kinds ∧
        ∀ entry ∈ changed.kinds, entry.2.mandatory = types := by
    simp only [← hvalue, ← Dict.eq_map_iff]
    exact ⟨fun h => h ▸ rfl, fun h => h ▸ rfl⟩
  rw [setMandatoryEverywhere, check_bind_eq_ok_iff, checkAll_eq_ok_iff, ← hchanged]
  simp only [checkConditionType_eq_ok_iff, pure, Except.pure, Except.ok.injEq]

theorem setMandatoryEverywhere_eq_error {kinds : KindRegistry} {types : List String}
    {e : ValidationError} (h : kinds.setMandatoryEverywhere types = .error e) :
    ∃ type ∈ types, isPascalCase type = false := by
  rcases bind_eq_error_iff.mp h with h | ⟨passed, -, h⟩
  · obtain ⟨before, type, after, rfl, -, hfault⟩ := checkAll_eq_error_iff.mp h
    exact ⟨type, by simp, (checkConditionType_eq_error_iff.mp hfault).1⟩
  · cases h

end KindRegistry

namespace Settings

/-! ## What variables say -/

/-- The text, blanks around it aside, is a 64-bit number. -/
def WritesNumber (value : String) (n : UInt64) : Prop :=
  ∃ numeral, Text.IsTrimOf numeral value.toList ∧ Text.IsNumeral numeral n.toNat

/-- The name stands between the commas of the text, blanks around it aside. -/
def ListsName (value name : String) : Prop :=
  name ≠ "" ∧ ∃ items, Text.IsCut ',' value.toList items ∧
    ∃ item ∈ items, Text.IsTrimOf name.toList item

theorem writesNumber_iff {text : String} {n : UInt64} :
    WritesNumber text n ↔
      Text.parseNat? UInt64.size (Text.trimChars text.toList) = some n.toNat := by
  rw [Text.parseNat?_eq_some_iff, and_iff_left n.toNat_lt_size]
  simp only [WritesNumber, ← Text.trimChars_eq_iff, exists_eq_left']

theorem writesNumber_of_parse {text : String} {n : Nat}
    (h : Text.parseNat? UInt64.size (Text.trimChars text.toList) = some n) :
    WritesNumber text (UInt64.ofNat n) := by
  rw [writesNumber_iff, UInt64.toNat_ofNat_of_lt' (Text.parseNat?_eq_some_iff.mp h).2, h]

theorem mem_splitNames_iff {value name : String} : name ∈ splitNames value ↔ ListsName value name := by
  simp only [splitNames, ListsName, NameSet.mem_ofList_iff, List.mem_map, List.mem_filter,
    Bool.not_eq_true', List.isEmpty_eq_false_iff, ← Text.splitAt_eq_iff, ← Text.trimChars_eq_iff,
    exists_eq_left']
  constructor
  · rintro ⟨_, ⟨⟨item, hitem, rfl⟩, hname⟩, rfl⟩
    exact ⟨by simpa using hname, item, hitem, String.toList_ofList.symm⟩
  · rintro ⟨hname, item, hitem, htrim⟩
    exact ⟨name.toList, ⟨⟨item, hitem, htrim⟩, by simpa using hname⟩, String.ofList_toList⟩

example : splitNames " Ready, ,Applied,Ready" = ["Applied", "Ready"] := by decide

/-- A path comes from its variable, unless that is blank or not set. -/
inductive PathComesFrom (value : Option String) (below : String) : String → Prop where
  | environment {path : String} (hset : value = some path) (hpath : Text.isAllBlank path = false) :
      PathComesFrom value below path
  | below (hblank : ∀ path, value = some path → Text.isAllBlank path = true) :
      PathComesFrom value below below

/-- A number comes from its variable, unless that is not set. -/
inductive NumberComesFrom (value : Option String) (below : UInt64) : UInt64 → Prop where
  | environment {text : String} {n : UInt64} (hset : value = some text) (hnumber : WritesNumber text n) :
      NumberComesFrom value below n
  | below (hunset : value = none) : NumberComesFrom value below below

/-- The mandatory types come from their variable, unless that is not set; the kinds do not. -/
inductive KindsComeFrom (value : Option String) (below : KindRegistry) : KindRegistry → Prop where
  | environment {list : String} {kinds : KindRegistry} (hset : value = some list)
      (hshaped : ∀ type, ListsName list type → isPascalCase type = true)
      (hkinds : Dict.keys kinds.kinds = Dict.keys below.kinds)
      (hsorted : ∀ entry ∈ kinds.kinds, NameSet.Sorted entry.2.mandatory)
      (hlisted : ∀ entry ∈ kinds.kinds, ∀ type, type ∈ entry.2.mandatory ↔ ListsName list type) :
      KindsComeFrom value below kinds
  | below (hunset : value = none) : KindsComeFrom value below below

/-! ## Each variable -/

theorem pathVariable_eq_iff {value : Option String} {below path : String} :
    pathVariable value below = path ↔ PathComesFrom value below path := by
  unfold pathVariable
  constructor
  · rintro rfl
    split
    · exact .below nofun
    · rename_i path
      split
      · rename_i hblank
        exact .below fun _ hpath => Option.some.inj hpath ▸ hblank
      · rename_i hpath
        exact .environment rfl (by simpa using hpath)
  · rintro (⟨rfl, hpath⟩ | hblank)
    · simp [hpath]
    · split
      · rfl
      · rename_i path
        rw [if_pos (hblank path rfl)]

theorem numberVariable_eq_ok_iff {name : String} {value : Option String} {below n : UInt64} :
    numberVariable name value below = .ok n ↔ NumberComesFrom value below n := by
  unfold numberVariable
  constructor
  · intro h
    split at h
    · cases h
      exact .below rfl
    · split at h
      · rename_i hparse
        cases h
        exact .environment rfl (writesNumber_of_parse hparse)
      · cases h
  · rintro (⟨rfl, hnumber⟩ | rfl)
    · simp only [writesNumber_iff.mp hnumber, UInt64.ofNat_toNat]
    · rfl

theorem numberVariable_eq_error_iff {name : String} {value : Option String} {below : UInt64}
    {e : SettingsError} : numberVariable name value below = .error e ↔
      ∃ text, value = some text ∧ (∀ n, ¬ WritesNumber text n) ∧ e = .invalidVariable name text := by
  unfold numberVariable
  cases value with
  | none => simp
  | some text =>
      simp only [Option.some.injEq, exists_eq_left']
      cases hparse : Text.parseNat? UInt64.size (Text.trimChars text.toList) with
      | none => simp [writesNumber_iff, hparse, eq_comm]
      | some n => simpa using fun h => absurd (writesNumber_of_parse hparse) (h _)

theorem typesVariable_eq_ok_iff {name : String} {value : Option String} {below kinds : KindRegistry} :
    typesVariable name value below = .ok kinds ↔ KindsComeFrom value below kinds := by
  constructor
  · intro h
    unfold typesVariable at h
    split at h
    · cases h
      exact .below rfl
    · split at h
      · rename_i list _ hset
        cases h
        obtain ⟨hshaped, hkinds, htypes⟩ := KindRegistry.setMandatoryEverywhere_eq_ok_iff.mp hset
        refine .environment rfl (fun type htype => hshaped type (mem_splitNames_iff.mpr htype)) hkinds
          (fun entry hentry => ?_) fun entry hentry type => ?_
        · rw [htypes entry hentry]
          exact NameSet.sorted_ofList _
        · rw [htypes entry hentry, mem_splitNames_iff]
      · cases h
  · rintro (@⟨list, kinds, rfl, hshaped, hkinds, hsorted, hlisted⟩ | rfl)
    · -- Both are in order and hold the same names, so they are one list.
      have htypes : ∀ entry ∈ kinds.kinds, entry.2.mandatory = splitNames list := fun entry hentry =>
        (hsorted entry hentry).eq_of_mem_iff (NameSet.sorted_ofList _) fun type =>
          (hlisted entry hentry type).trans mem_splitNames_iff.symm
      have hset : below.setMandatoryEverywhere (splitNames list) = .ok kinds :=
        KindRegistry.setMandatoryEverywhere_eq_ok_iff.mpr
          ⟨fun type htype => hshaped type (mem_splitNames_iff.mp htype), hkinds, htypes⟩
      simp only [typesVariable, hset]
    · rfl

theorem typesVariable_eq_error_iff {name : String} {value : Option String} {below : KindRegistry}
    {e : SettingsError} : typesVariable name value below = .error e ↔
      ∃ list, value = some list ∧ (∃ type, ListsName list type ∧ isPascalCase type = false) ∧
        e = .invalidVariable name list := by
  unfold typesVariable
  cases value with
  | none => simp
  | some list =>
      simp only [Option.some.injEq, exists_eq_left']
      cases hset : below.setMandatoryEverywhere (splitNames list) with
      | ok kinds =>
          have hshaped := (KindRegistry.setMandatoryEverywhere_eq_ok_iff.mp hset).1
          simp only [reduceCtorEq, false_iff, not_and, forall_exists_index, and_imp]
          intro type hlisted hshape
          rw [hshaped type (mem_splitNames_iff.mpr hlisted)] at hshape
          cases hshape
      | error fault =>
          obtain ⟨type, htype, hshape⟩ := KindRegistry.setMandatoryEverywhere_eq_error hset
          rw [and_iff_right ⟨type, mem_splitNames_iff.mp htype, hshape⟩, eq_comm, Except.error.injEq]

/-! ## The environment -/

/-- Settings are what the environment, a file and the defaults say: each of the first two layers goes
before those behind it. -/
structure IsLayered (s : Settings) (home : Option String) (layer : SettingsLayer)
    (lookup : String → Option String) : Prop where
  dbPath : PathComesFrom (lookup "FLEET_DB_PATH") (layer.dbPath.getD (default home).dbPath) s.dbPath
  poolSize : NumberComesFrom (lookup "FLEET_POOL_SIZE") (layer.poolSize.getD (default home).poolSize)
    s.poolSize
  busyTimeoutMs : s.busyTimeoutMs = layer.busyTimeoutMs.getD (default home).busyTimeoutMs
  requestTimeoutMs : NumberComesFrom (lookup "FLEET_REQUEST_TIMEOUT_MS")
    (layer.requestTimeoutMs.getD (default home).requestTimeoutMs) s.requestTimeoutMs
  defaultPageSize : s.defaultPageSize = layer.defaultPageSize.getD (default home).defaultPageSize
  maxPageSize : s.maxPageSize = layer.maxPageSize.getD (default home).maxPageSize
  kinds : KindsComeFrom (lookup "FLEET_MANDATORY_CONDITIONS") (layer.kinds.getD (default home).kinds)
    s.kinds

theorem withEnvironment_eq_ok_iff {s : Settings} {home : Option String} {layer : SettingsLayer}
    {lookup : String → Option String} :
    ((default home).under layer).withEnvironment lookup = .ok s ↔ s.IsLayered home layer lookup := by
  simp only [withEnvironment, bind_eq_ok_iff, numberVariable_eq_ok_iff, typesVariable_eq_ok_iff, pure,
    Except.pure, Except.ok.injEq]
  constructor
  · rintro ⟨poolSize, hpool, requestTimeout, htimeout, kinds, hkinds, rfl⟩
    exact ⟨pathVariable_eq_iff.mp rfl, hpool, rfl, htimeout, rfl, rfl, hkinds⟩
  · rintro ⟨hpath, hpool, hbusy, htimeout, hdefault, hmax, hkinds⟩
    refine ⟨_, hpool, _, htimeout, _, hkinds, ?_⟩
    cases s
    simp_all only [under, pathVariable_eq_iff.mpr hpath]

/-- A variable is a number, if it is set. -/
def SaysNumber (value : Option String) : Prop :=
  ∀ text, value = some text → ∃ n, WritesNumber text n

theorem saysNumber_iff {name : String} {value : Option String} {below : UInt64} :
    SaysNumber value ↔ ∃ n, numberVariable name value below = .ok n := by
  simp only [numberVariable_eq_ok_iff]
  constructor
  · intro h
    cases value with
    | none => exact ⟨below, .below rfl⟩
    | some text =>
        obtain ⟨n, hnumber⟩ := h text rfl
        exact ⟨n, .environment rfl hnumber⟩
  · rintro ⟨n, ⟨rfl, hnumber⟩ | rfl⟩
    · rintro _ ⟨⟩
      exact ⟨n, hnumber⟩
    · nofun

/-- The first variable, in this order, that is set to something else than it has to be. -/
inductive FirstMisstatement (lookup : String → Option String) : String → String → Prop where
  | poolSize {text : String} (hset : lookup "FLEET_POOL_SIZE" = some text)
      (hwrong : ∀ n, ¬ WritesNumber text n) : FirstMisstatement lookup "FLEET_POOL_SIZE" text
  | requestTimeout {text : String} (hpool : SaysNumber (lookup "FLEET_POOL_SIZE"))
      (hset : lookup "FLEET_REQUEST_TIMEOUT_MS" = some text) (hwrong : ∀ n, ¬ WritesNumber text n) :
      FirstMisstatement lookup "FLEET_REQUEST_TIMEOUT_MS" text
  | mandatory {list type : String} (hpool : SaysNumber (lookup "FLEET_POOL_SIZE"))
      (htimeout : SaysNumber (lookup "FLEET_REQUEST_TIMEOUT_MS"))
      (hset : lookup "FLEET_MANDATORY_CONDITIONS" = some list) (hlisted : ListsName list type)
      (hshape : isPascalCase type = false) :
      FirstMisstatement lookup "FLEET_MANDATORY_CONDITIONS" list

theorem withEnvironment_eq_error_iff {s : Settings} {lookup : String → Option String}
    {e : SettingsError} : s.withEnvironment lookup = .error e ↔
      ∃ name value, FirstMisstatement lookup name value ∧ e = .invalidVariable name value := by
  simp only [withEnvironment, bind_eq_error_iff, numberVariable_eq_error_iff, typesVariable_eq_error_iff]
  constructor
  · rintro (⟨text, hset, hwrong, rfl⟩ | ⟨poolSize, hpool, ⟨text, hset, hwrong, rfl⟩ |
      ⟨requestTimeout, htimeout, ⟨list, hset, ⟨type, hlisted, hshape⟩, rfl⟩ | ⟨kinds, -, h⟩⟩⟩)
    · exact ⟨_, _, .poolSize hset hwrong, rfl⟩
    · exact ⟨_, _, .requestTimeout (saysNumber_iff.mpr ⟨_, hpool⟩) hset hwrong, rfl⟩
    · exact ⟨_, _, .mandatory (saysNumber_iff.mpr ⟨_, hpool⟩) (saysNumber_iff.mpr ⟨_, htimeout⟩) hset
        hlisted hshape, rfl⟩
    · cases h
  · rintro ⟨_, _, ⟨hset, hwrong⟩ | ⟨hpool, hset, hwrong⟩ | ⟨hpool, htimeout, hset, hlisted, hshape⟩, rfl⟩
    · exact .inl ⟨_, hset, hwrong, rfl⟩
    · obtain ⟨poolSize, hpool⟩ := saysNumber_iff.mp hpool
      exact .inr ⟨poolSize, hpool, .inl ⟨_, hset, hwrong, rfl⟩⟩
    · obtain ⟨poolSize, hpool⟩ := saysNumber_iff.mp hpool
      obtain ⟨requestTimeout, htimeout⟩ := saysNumber_iff.mp htimeout
      exact .inr ⟨poolSize, hpool, .inr ⟨requestTimeout, htimeout,
        .inl ⟨_, hset, ⟨_, hlisted, hshape⟩, rfl⟩⟩⟩

/-! ## The whole -/

/-- There is a connection, and a page by default holds something, but not more than any page may. -/
structure HasSoundNumbers (s : Settings) : Prop where
  connections : 1 ≤ s.poolSize.toNat
  least : 1 ≤ s.defaultPageSize.toNat
  most : s.defaultPageSize.toNat ≤ s.maxPageSize.toNat

/-- The settings can be run with. -/
structure IsSound (s : Settings) : Prop extends HasSoundNumbers s where
  kinds : s.kinds.kinds ≠ []
  names : ∀ entry ∈ s.kinds.kinds, KindRegistry.IsWellNamed entry

/-- The first reason for which settings cannot be run with. -/
inductive FirstFault (s : Settings) : SettingsFault → Prop where
  | noConnections (hpool : s.poolSize.toNat = 0) : FirstFault s .noConnections
  | pageSizes (hpool : 1 ≤ s.poolSize.toNat)
      (hwrong : s.defaultPageSize.toNat = 0 ∨ s.maxPageSize.toNat < s.defaultPageSize.toNat) :
      FirstFault s (.pageSizes s.defaultPageSize s.maxPageSize)
  | noKinds (hnumbers : s.HasSoundNumbers) (hkinds : s.kinds.kinds = []) : FirstFault s .noKinds
  | kinds {before : List (String × KindSpec)} {entry : String × KindSpec}
      {after : List (String × KindSpec)} {e : ValidationError} (hnumbers : s.HasSoundNumbers)
      (hsplit : s.kinds.kinds = before ++ entry :: after)
      (hbefore : ∀ other ∈ before, KindRegistry.IsWellNamed other)
      (hwrong : KindRegistry.FirstMisnomer entry e) : FirstFault s (.kinds e)

theorem validate_kinds_eq_ok_iff {kinds : KindRegistry} :
    kinds.validate = .ok () ↔ ∀ entry ∈ kinds.kinds, KindRegistry.IsWellNamed entry := by
  simp only [KindRegistry.validate, checkAll_eq_ok_iff, KindRegistry.checkKind_eq_ok_iff]

theorem validate_kinds_eq_error_iff {kinds : KindRegistry} {e : ValidationError} :
    kinds.validate = .error e ↔ ∃ before entry after, kinds.kinds = before ++ entry :: after ∧
      (∀ other ∈ before, KindRegistry.IsWellNamed other) ∧ KindRegistry.FirstMisnomer entry e := by
  simp only [KindRegistry.validate, checkAll_eq_error_iff, KindRegistry.checkKind_eq_ok_iff,
    KindRegistry.checkKind_eq_error_iff]

/-- Validation in the order in which it looks: connections, sizes of pages, kinds, names. -/
theorem validate_eq (s : Settings) :
    s.validate =
      if s.poolSize.toNat = 0 then .error (.invalid .noConnections)
      else if s.defaultPageSize.toNat = 0 ∨ s.maxPageSize.toNat < s.defaultPageSize.toNat then
        .error (.invalid (.pageSizes s.defaultPageSize s.maxPageSize))
      else if s.kinds.kinds = [] then .error (.invalid .noKinds)
      else s.kinds.validate.mapError fun e => .invalid (.kinds e) := by
  have hpool : s.poolSize = 0 ↔ s.poolSize.toNat = 0 := by
    rw [← UInt64.toNat_inj]
    rfl
  have hdefault : s.defaultPageSize = 0 ↔ s.defaultPageSize.toNat = 0 := by
    rw [← UInt32.toNat_inj]
    rfl
  simp only [validate, Bool.or_eq_true, decide_eq_true_eq, hpool, hdefault, UInt32.lt_iff_toNat_lt,
    List.isEmpty_iff]
  cases s.kinds.validate <;> rfl

theorem validate_eq_ok_iff {s : Settings} : s.validate = .ok () ↔ s.IsSound := by
  rw [validate_eq]
  constructor
  · intro h
    split at h
    · cases h
    · rename_i hpool
      split at h
      · cases h
      · rename_i hsizes
        split at h
        · cases h
        · rename_i hkinds
          rw [mapError_eq_ok_iff, validate_kinds_eq_ok_iff] at h
          exact ⟨⟨by omega, by omega, by omega⟩, hkinds, h⟩
  · rintro ⟨⟨hpool, hleast, hmost⟩, hkinds, hnames⟩
    rw [if_neg (by omega), if_neg (by omega), if_neg hkinds, mapError_eq_ok_iff,
      validate_kinds_eq_ok_iff]
    exact hnames

theorem validate_eq_error_iff {s : Settings} {e : SettingsError} :
    s.validate = .error e ↔ ∃ fault, s.FirstFault fault ∧ e = .invalid fault := by
  rw [validate_eq]
  constructor
  · intro h
    split at h
    · rename_i hpool
      cases h
      exact ⟨_, .noConnections hpool, rfl⟩
    · rename_i hpool
      split at h
      · rename_i hsizes
        cases h
        exact ⟨_, .pageSizes (by omega) hsizes, rfl⟩
      · rename_i hsizes
        have hnumbers : s.HasSoundNumbers := ⟨by omega, by omega, by omega⟩
        split at h
        · rename_i hkinds
          cases h
          exact ⟨_, .noKinds hnumbers hkinds, rfl⟩
        · cases hvalid : s.kinds.validate with
          | ok passed =>
              rw [hvalid] at h
              cases h
          | error fault =>
              rw [hvalid] at h
              cases h
              obtain ⟨before, entry, after, hsplit, hbefore, hwrong⟩ :=
                validate_kinds_eq_error_iff.mp hvalid
              exact ⟨_, .kinds hnumbers hsplit hbefore hwrong, rfl⟩
  · rintro ⟨_, hpool | ⟨hpool, hwrong⟩ | ⟨⟨hpool, hleast, hmost⟩, hkinds⟩ |
      ⟨⟨hpool, hleast, hmost⟩, hsplit, hbefore, hwrong⟩, rfl⟩
    · rw [if_pos hpool]
    · rw [if_neg (by omega), if_pos hwrong]
    · rw [if_neg (by omega), if_neg (by omega), if_pos hkinds]
    · have hvalid := validate_kinds_eq_error_iff.mpr ⟨_, _, _, hsplit, hbefore, hwrong⟩
      rw [if_neg (by omega), if_neg (by omega), if_neg (by simp [hsplit]), hvalid, mapError_error]

variable {home : Option String} {file : SettingsFile} {lookup : String → Option String}
  {ofText? : String → Option SettingsLayer}

/-- What a file says, if it can be read: nothing if there is none. -/
inductive FileSays (ofText? : String → Option SettingsLayer) : SettingsFile → SettingsLayer → Prop where
  | notGiven : FileSays ofText? .notGiven {}
  | text {content : String} {layer : SettingsLayer} (htext : ofText? content = some layer) :
      FileSays ofText? (.text content) layer

theorem layer_eq_ok_iff {layer : SettingsLayer} :
    file.layer ofText? = .ok layer ↔ FileSays ofText? file layer := by
  constructor
  · intro h
    unfold SettingsFile.layer at h
    split at h
    · cases h
      exact .notGiven
    · cases h
    · split at h
      · rename_i htext
        cases h
        exact .text htext
      · cases h
  · rintro (_ | htext)
    · rfl
    · simp only [SettingsFile.layer, htext]

/-- Why there are no settings: the file cannot be read, or else its text is no layer, or else a
variable is misstated, or else what comes of the layers cannot be run with. -/
inductive FailsWith (home : Option String) (file : SettingsFile) (lookup : String → Option String)
    (ofText? : String → Option SettingsLayer) : SettingsError → Prop where
  | unreadable (hfile : file = .unreadable) : FailsWith home file lookup ofText? .unreadableFile
  | notDecodable {content : String} (hfile : file = .text content) (htext : ofText? content = none) :
      FailsWith home file lookup ofText? .notDecodable
  | environment {layer : SettingsLayer} {name value : String} (hfile : FileSays ofText? file layer)
      (hwrong : FirstMisstatement lookup name value) :
      FailsWith home file lookup ofText? (.invalidVariable name value)
  | whole {layer : SettingsLayer} {s : Settings} {fault : SettingsFault}
      (hfile : FileSays ofText? file layer) (hlayered : s.IsLayered home layer lookup)
      (hfault : s.FirstFault fault) : FailsWith home file lookup ofText? (.invalid fault)

theorem layer_eq_error_iff {e : SettingsError} :
    file.layer ofText? = .error e ↔ (file = .unreadable ∧ e = .unreadableFile) ∨
      ∃ content, file = .text content ∧ ofText? content = none ∧ e = .notDecodable := by
  cases file with
  | notGiven => simp [SettingsFile.layer]
  | unreadable => simp [SettingsFile.layer, eq_comm]
  | text content =>
      cases htext : ofText? content <;> simp [SettingsFile.layer, htext, eq_comm]

/-- Loading lays the layers over each other and looks at what comes of it. -/
theorem load_eq (home : Option String) (file : SettingsFile) (lookup : String → Option String)
    (ofText? : String → Option SettingsLayer) :
    load home file lookup ofText? = file.layer ofText? >>= fun layer =>
      ((default home).under layer).withEnvironment lookup >>= fun s => s.validate >>= fun _ => .ok s := by
  unfold load withFile
  cases file.layer ofText? <;> rfl

/-! ## Mandatory types in order -/

/-- The kinds that a file names have their mandatory types in order. -/
theorem isSorted_of_read {style : Json.Style} {depth : Nat} {tree : Json.Tree} {layer : SettingsLayer}
    (h : SettingsLayer.read style depth tree = some layer) :
    ∀ kinds ∈ layer.kinds, kinds.IsSorted := by
  obtain ⟨fields, -, h⟩ := Option.bind_eq_some_iff.mp h
  obtain ⟨dbPath, -, h⟩ := Option.bind_eq_some_iff.mp h
  obtain ⟨poolSize, -, h⟩ := Option.bind_eq_some_iff.mp h
  obtain ⟨busyTimeout, -, h⟩ := Option.bind_eq_some_iff.mp h
  obtain ⟨requestTimeout, -, h⟩ := Option.bind_eq_some_iff.mp h
  obtain ⟨defaultPageSize, -, h⟩ := Option.bind_eq_some_iff.mp h
  obtain ⟨maxPageSize, -, h⟩ := Option.bind_eq_some_iff.mp h
  obtain ⟨given, hgiven, h⟩ := Option.bind_eq_some_iff.mp h
  cases h
  intro kinds hkinds
  obtain rfl | ⟨tree, htree⟩ := Json.Fields.of_orDefault hgiven
  · cases hkinds
  · obtain ⟨found, hread, rfl⟩ := Option.map_eq_some_iff.mp htree
    cases hkinds
    exact KindRegistry.isSorted_of_read hread

theorem isSorted_of_fileSays {layer : SettingsLayer} (h : FileSays SettingsLayer.ofText? file layer) :
    ∀ kinds ∈ layer.kinds, kinds.IsSorted := by
  cases h with
  | notGiven => nofun
  | text htext =>
      unfold SettingsLayer.ofText? at htext
      split at htext
      · cases htext
        nofun
      · obtain ⟨raw, -, hdecode⟩ := Option.bind_eq_some_iff.mp htext
        obtain ⟨tree, -, htree⟩ := Option.bind_eq_some_iff.mp hdecode
        exact isSorted_of_read htree

theorem KindsComeFrom.isSorted {value : Option String} {below kinds : KindRegistry}
    (h : KindsComeFrom value below kinds) (hbelow : below.IsSorted) : kinds.IsSorted := by
  cases h with
  | environment hset hshaped hkinds hsorted hlisted => exact hsorted
  | below hunset => exact hbelow

/-- The mandatory types of a board that settings make are in order. -/
theorem isSorted_board {s : Settings} (h : load home file lookup = .ok s) :
    s.board.kinds.IsSorted := by
  rw [load_eq] at h
  obtain ⟨layer, hlayer, h⟩ := bind_eq_ok_iff.mp h
  obtain ⟨merged, hmerged, h⟩ := bind_eq_ok_iff.mp h
  obtain ⟨-, -, ⟨⟩⟩ := bind_eq_ok_iff.mp h
  refine (withEnvironment_eq_ok_iff.mp hmerged).kinds.isSorted ?_
  cases hkinds : layer.kinds with
  | none => exact KindRegistry.isSorted_reference
  | some kinds => exact isSorted_of_fileSays (layer_eq_ok_iff.mp hlayer) kinds hkinds

/-! ## Every load -/

/-- Settings are loaded exactly if the file can be read, each variable is right, and what the three
layers come to can be run with; they are what the layers come to.  If not, the first of these that
fails is told. -/
theorem layers_decide (home : Option String) (file : SettingsFile) (lookup : String → Option String)
    (ofText? : String → Option SettingsLayer) :
    (∀ s, load home file lookup ofText? = .ok s ↔
      ∃ layer, FileSays ofText? file layer ∧ s.IsLayered home layer lookup ∧ s.IsSound) ∧
    ∀ e, load home file lookup ofText? = .error e ↔ FailsWith home file lookup ofText? e := by
  rw [load_eq]
  constructor
  · intro s
    simp only [bind_eq_ok_iff, layer_eq_ok_iff, withEnvironment_eq_ok_iff, Except.ok.injEq]
    constructor
    · rintro ⟨layer, hfile, _, hlayered, ⟨⟩, hvalid, rfl⟩
      exact ⟨layer, hfile, hlayered, validate_eq_ok_iff.mp hvalid⟩
    · rintro ⟨layer, hfile, hlayered, hsound⟩
      exact ⟨layer, hfile, s, hlayered, (), validate_eq_ok_iff.mpr hsound, rfl⟩
  · intro e
    simp only [bind_eq_error_iff, layer_eq_error_iff, layer_eq_ok_iff, withEnvironment_eq_error_iff,
      withEnvironment_eq_ok_iff, validate_eq_error_iff, reduceCtorEq, and_false, exists_false, or_false]
    constructor
    · rintro ((⟨hfile, rfl⟩ | ⟨content, hfile, htext, rfl⟩) |
        ⟨layer, hfile, ⟨name, value, hwrong, rfl⟩ | ⟨s, hlayered, fault, hfault, rfl⟩⟩)
      · exact .unreadable hfile
      · exact .notDecodable hfile htext
      · exact .environment hfile hwrong
      · exact .whole hfile hlayered hfault
    · rintro (hfile | ⟨hfile, htext⟩ | ⟨hfile, hwrong⟩ | ⟨hfile, hlayered, hfault⟩)
      · exact .inl (.inl ⟨hfile, rfl⟩)
      · exact .inl (.inr ⟨_, hfile, htext, rfl⟩)
      · exact .inr ⟨_, hfile, .inl ⟨_, _, hwrong, rfl⟩⟩
      · exact .inr ⟨_, hfile, .inr ⟨_, hlayered, _, hfault, rfl⟩⟩

end Settings
end StatusBoard

/-
What the settings of a process make of a store. A setting that is unset or no text stands for its
default (`Setting.Gives`); the text of any other is read without the blanks around it, a number by
its digits, a word in small and large letters alike. The configuration holds what the settings give,
and otherwise the first setting at fault is reported, and a capacity of zero only if none is
(`Config.ofEnvironment_eq_iff`).
-/
import ObjectTiers.Config
import ObjectTiers.Proofs.Blank
import ObjectTiers.Proofs.Number
import ObjectTiers.Proofs.Text

namespace ObjectTiers

/-- The setting has a text. -/
def Environment.Sets (env : Environment) (name s : String) : Prop :=
  env name = some (Bytes.ofText s)

theorem Environment.text?_eq_some_iff {env : Environment} {name s : String} :
    env.text? name = some s ↔ env.Sets name s := by
  rw [text?, Option.bind_eq_some_iff, Sets]
  constructor
  · rintro ⟨b, hb, hs⟩
    rw [hb, Bytes.ofText_of_toText? hs]
  · intro h
    exact ⟨_, h, Bytes.toText?_ofText s⟩

/-- A setting: its name, what it is where it has no text, which texts spell which value, and what is
reported of the others. What is reported quotes the text with the blanks around it. -/
structure Setting (α : Type) where
  name : String
  absent : α
  Spells : List Char → α → Prop
  Misspells : String → List Char → ConfigError → Prop

namespace Setting

variable {α : Type} {σ : Setting α} {env : Environment} {r : Except ConfigError α} {s : String}

/-- The value of a setting. -/
inductive Gives (σ : Setting α) (env : Environment) : α → Prop
  | absent (h : ∀ s, ¬ env.Sets σ.name s) : Gives σ env σ.absent
  | spelled {s : String} {t : List Char} {a : α} (hs : env.Sets σ.name s)
    (ht : Text.TrimsTo s.toList t) (ha : σ.Spells t a) : Gives σ env a

/-- The setting has a text that spells no value, of which this is reported. -/
def Offends (σ : Setting α) (env : Environment) (e : ConfigError) : Prop :=
  ∃ s t, env.Sets σ.name s ∧ Text.TrimsTo s.toList t ∧ σ.Misspells s t e

/-- A number of 64 bits. -/
def number (name : String) (absent : UInt64) : Setting UInt64 where
  name := name
  absent := absent
  Spells := Text.SpellsNumber
  Misspells s t e := ∃ fault, Text.Misspells t fault ∧ e = .invalidNumber name s fault

/-- The time to live, in seconds. -/
def cacheTtl : Setting UInt64 := number Config.ttlSetting 3600

/-- The policy for a failing cache. -/
def policy : Setting Policy where
  name := Config.policySetting
  absent := .log
  Spells t p := Text.IsCaseOf t p.label
  Misspells s t e := (∀ p : Policy, ¬ Text.IsCaseOf t p.label) ∧ e = .invalidPolicy s

/-- The number of objects that the memory has room for. -/
def capacity : Setting UInt64 := number Config.capacitySetting 10000

/-- The words for a truth value. -/
def words : Bool → List String
  | true => ["true", "1", "yes", "on"]
  | false => ["false", "0", "no", "off"]

/-- Whether reads use the cache. -/
def useCache : Setting Bool where
  name := Config.useCacheSetting
  absent := true
  Spells t b := ∃ w ∈ words b, Text.IsCaseOf t w
  Misspells s t e :=
    (∀ b, ∀ w ∈ words b, ¬ Text.IsCaseOf t w) ∧ e = .invalidBool Config.useCacheSetting s

/-! ### Reading one setting -/

/-- A result tells the value of a setting, or what is reported of it. -/
structure IsRead (σ : Setting α) (env : Environment) (r : Except ConfigError α) : Prop where
  ok_iff : ∀ a, r = .ok a ↔ σ.Gives env a
  error_iff : ∀ e, r = .error e ↔ σ.Offends env e

theorem IsRead.ok {a : α} (h : σ.IsRead env r) (ha : σ.Gives env a) : r = .ok a :=
  (h.ok_iff a).mpr ha

theorem IsRead.error {e : ConfigError} (h : σ.IsRead env r) (he : σ.Offends env e) :
    r = .error e :=
  (h.error_iff e).mpr he

theorem IsRead.gives_or_offends (h : σ.IsRead env r) :
    (∃ a, σ.Gives env a) ∨ ∃ e, σ.Offends env e := by
  cases hr : r with
  | ok a => exact .inl ⟨a, (h.ok_iff a).mp hr⟩
  | error e => exact .inr ⟨e, (h.error_iff e).mp hr⟩

theorem isRead_of_none (h : env.text? σ.name = none) : σ.IsRead env (.ok σ.absent) := by
  have hunset (s : String) : ¬ env.Sets σ.name s := by
    intro hs
    rw [Environment.text?_eq_some_iff.mpr hs] at h
    cases h
  refine ⟨fun a => ⟨?_, ?_⟩, fun e => ⟨nofun, ?_⟩⟩
  · intro ha
    cases ha
    exact .absent hunset
  · intro ha
    cases ha with
    | absent => rfl
    | spelled hs => exact absurd hs (hunset _)
  · intro he
    obtain ⟨s, t, hs, -⟩ := he
    exact absurd hs (hunset s)

/-- A setting with a text is read by what tells the values and the faults of trimmed texts. -/
theorem isRead_of_some (h : env.text? σ.name = some s)
    (hok : ∀ a, r = .ok a ↔ σ.Spells (Text.trimChars s.toList) a)
    (herror : ∀ e, r = .error e ↔ σ.Misspells s (Text.trimChars s.toList) e) :
    σ.IsRead env r := by
  have hsets := Environment.text?_eq_some_iff.mp h
  have hunique {s' : String} (hs' : env.Sets σ.name s') : s' = s := by
    rw [Environment.text?_eq_some_iff.mpr hs'] at h
    exact Option.some.inj h
  have htrims := Text.trimsTo_trimChars s.toList
  refine ⟨fun a => ?_, fun e => ?_⟩
  · rw [hok]
    constructor
    · exact .spelled hsets htrims
    · intro ha
      cases ha with
      | absent hunset => exact absurd hsets (hunset s)
      | spelled hs ht ha =>
        cases hunique hs
        rwa [Text.trimsTo_iff.mp ht]
  · rw [herror]
    constructor
    · intro he
      exact ⟨s, _, hsets, htrims, he⟩
    · intro he
      obtain ⟨s', t, hs', ht, he⟩ := he
      cases hunique hs'
      rwa [Text.trimsTo_iff.mp ht]

theorem isRead_number (env : Environment) (name : String) (absent : UInt64) :
    (number name absent).IsRead env (Config.readNumber env name absent) := by
  unfold Config.readNumber
  cases htext : env.text? name with
  | none => exact isRead_of_none htext
  | some s =>
    refine isRead_of_some htext (fun n => ?_) fun e => ?_
    all_goals
      dsimp only [number, Text.trim]
      simp only [← Text.readWord64_eq_ok_iff, ← Text.readWord64_eq_error_iff]
      cases Text.readWord64 (String.ofList (Text.trimChars s.toList)) <;> simp [eq_comm]

theorem isPlainWord_label (p : Policy) : Text.IsPlainWord p.label.toList := by
  cases p <;> decide

theorem isPlainWord_of_mem {b : Bool} {w : String} (hw : w ∈ words b) :
    Text.IsPlainWord w.toList := by
  have hplain : ∀ w ∈ words b, Text.IsPlainWord w.toList := by
    cases b <;> decide
  exact hplain w hw

theorem ofWord?_eq_some_iff {p : Policy} :
    Policy.ofWord? s = some p ↔ Text.settingWord s = p.label := by
  unfold Policy.ofWord?
  dsimp only
  cases p <;> split_ifs <;> simp_all [Policy.label]

theorem boolOfWord?_eq_some_iff {b : Bool} :
    Config.boolOfWord? s = some b ↔ Text.settingWord s ∈ words b := by
  have heq : Config.boolOfWord? s =
      if Text.settingWord s ∈ words true then some true
      else if Text.settingWord s ∈ words false then some false
      else none := by
    simp [Config.boolOfWord?, words]
  have hdisjoint : ∀ w ∈ words true, w ∉ words false := by decide
  rw [heq]
  by_cases htrue : Text.settingWord s ∈ words true
  · cases b <;> simp [htrue, hdisjoint]
  · cases b <;> simp [htrue]

/-- A text spells a truth value if the word that is read names it. -/
theorem exists_isCaseOf_iff {b : Bool} :
    (∃ w ∈ words b, Text.IsCaseOf (Text.trimChars s.toList) w) ↔
      Config.boolOfWord? s = some b := by
  rw [boolOfWord?_eq_some_iff]
  constructor
  · intro h
    obtain ⟨w, hw, hcase⟩ := h
    rwa [(Text.settingWord_eq_iff (isPlainWord_of_mem hw)).mpr hcase]
  · intro hmem
    exact ⟨_, hmem, (Text.settingWord_eq_iff (isPlainWord_of_mem hmem)).mp rfl⟩

theorem forall_not_isCaseOf_iff :
    (∀ b, ∀ w ∈ words b, ¬ Text.IsCaseOf (Text.trimChars s.toList) w) ↔
      ∀ b, Config.boolOfWord? s ≠ some b := by
  simp only [ne_eq, ← exists_isCaseOf_iff, not_exists, not_and]

theorem isRead_cacheTtl (env : Environment) :
    cacheTtl.IsRead env (Config.readNumber env Config.ttlSetting Config.default.cacheTtl) :=
  isRead_number env Config.ttlSetting 3600

theorem isRead_capacity (env : Environment) :
    capacity.IsRead env (Config.readNumber env Config.capacitySetting Config.default.capacity) :=
  isRead_number env Config.capacitySetting 10000

theorem isRead_policy (env : Environment) :
    policy.IsRead env (Config.readPolicy env Config.default.policy) := by
  unfold Config.readPolicy
  cases htext : env.text? Config.policySetting with
  | none => exact isRead_of_none htext
  | some s =>
    refine isRead_of_some htext (fun p => ?_) fun e => ?_
    all_goals
      dsimp only [policy]
      simp only [← Text.settingWord_eq_iff (isPlainWord_label _), ← ofWord?_eq_some_iff]
      cases Policy.ofWord? s <;> simp [eq_comm]

theorem isRead_useCache (env : Environment) :
    useCache.IsRead env
      (Config.readBool env Config.useCacheSetting Config.default.useCache) := by
  unfold Config.readBool
  cases htext : env.text? Config.useCacheSetting with
  | none => exact isRead_of_none htext
  | some s =>
    refine isRead_of_some htext (fun b => ?_) fun e => ?_
    all_goals
      dsimp only [useCache]
      simp only [exists_isCaseOf_iff, forall_not_isCaseOf_iff]
      cases Config.boolOfWord? s <;> simp [eq_comm]

end Setting

/-! ### All settings -/

namespace Config

variable {env : Environment} {c : Config} {e : ConfigError}

/-- The configuration holds what the settings give. -/
structure IsGiven (env : Environment) (c : Config) : Prop where
  cacheTtl : Setting.cacheTtl.Gives env c.cacheTtl
  policy : Setting.policy.Gives env c.policy
  capacity : Setting.capacity.Gives env c.capacity
  useCache : Setting.useCache.Gives env c.useCache

/-- What is reported of settings: the fault of the first that has one, in this order, and of a
capacity of zero if none has. -/
inductive Fails (env : Environment) : ConfigError → Prop
  | cacheTtl {e : ConfigError} (h : Setting.cacheTtl.Offends env e) : Fails env e
  | policy {e : ConfigError} {ttl : UInt64} (httl : Setting.cacheTtl.Gives env ttl)
    (h : Setting.policy.Offends env e) : Fails env e
  | capacity {e : ConfigError} {ttl : UInt64} {p : Policy} (httl : Setting.cacheTtl.Gives env ttl)
    (hpolicy : Setting.policy.Gives env p) (h : Setting.capacity.Offends env e) : Fails env e
  | useCache {e : ConfigError} {ttl n : UInt64} {p : Policy}
    (httl : Setting.cacheTtl.Gives env ttl) (hpolicy : Setting.policy.Gives env p)
    (hcapacity : Setting.capacity.Gives env n) (h : Setting.useCache.Offends env e) : Fails env e
  | zeroCapacity {c : Config} (h : IsGiven env c) (hzero : c.capacity = 0) :
    Fails env .zeroCapacity

/-- A configuration that the settings give is checked. -/
theorem IsGiven.ofEnvironment (h : IsGiven env c) :
    ofEnvironment env = c.check.map fun _ => c := by
  rw [Config.ofEnvironment, (Setting.isRead_cacheTtl env).ok h.cacheTtl,
    (Setting.isRead_policy env).ok h.policy,
    (Setting.isRead_capacity env).ok h.capacity,
    (Setting.isRead_useCache env).ok h.useCache]
  rfl

theorem check_of_ne (h : c.capacity ≠ 0) : c.check = .ok () := if_neg h

theorem Fails.ofEnvironment (h : Fails env e) : ofEnvironment env = .error e := by
  cases h with
  | cacheTtl h =>
    rw [Config.ofEnvironment, (Setting.isRead_cacheTtl env).error h]
    rfl
  | policy httl h =>
    rw [Config.ofEnvironment, (Setting.isRead_cacheTtl env).ok httl,
      (Setting.isRead_policy env).error h]
    rfl
  | capacity httl hpolicy h =>
    rw [Config.ofEnvironment, (Setting.isRead_cacheTtl env).ok httl,
      (Setting.isRead_policy env).ok hpolicy,
      (Setting.isRead_capacity env).error h]
    rfl
  | useCache httl hpolicy hcapacity h =>
    rw [Config.ofEnvironment, (Setting.isRead_cacheTtl env).ok httl,
      (Setting.isRead_policy env).ok hpolicy,
      (Setting.isRead_capacity env).ok hcapacity,
      (Setting.isRead_useCache env).error h]
    rfl
  | zeroCapacity h hzero =>
    rw [h.ofEnvironment, check, if_pos hzero]
    rfl

/-- The settings give a configuration with room for an object, or something is wrong with them. -/
theorem isGiven_or_fails (env : Environment) :
    (∃ c, IsGiven env c ∧ c.capacity ≠ 0) ∨ ∃ e, Fails env e := by
  rcases (Setting.isRead_cacheTtl env).gives_or_offends with ⟨ttl, httl⟩ | ⟨e, h⟩
  swap
  · exact .inr ⟨e, .cacheTtl h⟩
  rcases (Setting.isRead_policy env).gives_or_offends with ⟨p, hpolicy⟩ | ⟨e, h⟩
  swap
  · exact .inr ⟨e, .policy httl h⟩
  rcases (Setting.isRead_capacity env).gives_or_offends with ⟨n, hcapacity⟩ | ⟨e, h⟩
  swap
  · exact .inr ⟨e, .capacity httl hpolicy h⟩
  rcases (Setting.isRead_useCache env).gives_or_offends with ⟨b, huse⟩ | ⟨e, h⟩
  swap
  · exact .inr ⟨e, .useCache httl hpolicy hcapacity h⟩
  have hgiven : IsGiven env ⟨ttl, p, n, b⟩ := ⟨httl, hpolicy, hcapacity, huse⟩
  by_cases hzero : n = 0
  · exact .inr ⟨_, .zeroCapacity hgiven hzero⟩
  · exact .inl ⟨_, hgiven, hzero⟩

/-- The configuration of a store holds what the settings give, if that has room for an object. Of
other settings the first fault is reported, in the order time to live, policy, capacity and use of
the cache, and a capacity of zero if there is none. The words are met by the same texts, and so by
their spellings in small and large ASCII letters alone, if all characters of a text are put in lower
case. -/
theorem ofEnvironment_eq_iff (env : Environment) :
    (∀ c, ofEnvironment env = .ok c ↔ IsGiven env c ∧ c.capacity ≠ 0) ∧
    (∀ e, ofEnvironment env = .error e ↔ Fails env e) ∧
    ∀ (s : String) (lowered : List Char), Text.Lowers (Text.trimChars s.toList) lowered →
      (∀ p : Policy, lowered = p.label.toList ↔ Text.settingWord s = p.label) ∧
      ∀ b, ∀ w ∈ Setting.words b, (lowered = w.toList ↔ Text.settingWord s = w) := by
  refine ⟨fun c => ⟨fun h => ?_, ?_⟩, fun e => ⟨fun h => ?_, Fails.ofEnvironment⟩, ?_⟩
  · rcases isGiven_or_fails env with ⟨c', hgiven, hne⟩ | ⟨e, hfails⟩
    · rw [hgiven.ofEnvironment, check_of_ne hne] at h
      cases h
      exact ⟨hgiven, hne⟩
    · rw [hfails.ofEnvironment] at h
      cases h
  · rintro ⟨hgiven, hne⟩
    rw [hgiven.ofEnvironment, check_of_ne hne]
    rfl
  · rcases isGiven_or_fails env with ⟨c, hgiven, hne⟩ | ⟨e', hfails⟩
    · rw [hgiven.ofEnvironment, check_of_ne hne] at h
      cases h
    · rw [hfails.ofEnvironment] at h
      cases h
      exact hfails
  · intro s lowered hlowers
    have hword {w : String} (hw : Text.IsPlainWord w.toList) :
        lowered = w.toList ↔ Text.settingWord s = w := by
      rw [hlowers.eq_iff hw, Text.settingWord_eq_iff hw, Text.IsCaseOf]
    exact ⟨fun p => hword (Setting.isPlainWord_label p),
      fun b w hw => hword (Setting.isPlainWord_of_mem hw)⟩

/-- A signed number with zeros and blanks, a word in letters of both sizes, a setting that is no
text and one that is unset. Beside them a capacity that is one too large is reported, and not the
word for the use of the cache that comes after it. -/
theorem ofEnvironment_eq_iff_mixed : ∃ env env' : Environment,
    env ttlSetting = some (Bytes.ofText "\u2003+007\n") ∧
    env policySetting = some (Bytes.ofText "LoG") ∧
    env capacitySetting = some [0xff] ∧ env useCacheSetting = none ∧
    ofEnvironment env = .ok ⟨7, .log, 10000, true⟩ ∧
    env' ttlSetting = env ttlSetting ∧ env' policySetting = env policySetting ∧
    env' capacitySetting = some (Bytes.ofText "18446744073709551616") ∧
    env' useCacheSetting = some (Bytes.ofText "maybe") ∧
    ofEnvironment env' =
      .error (.invalidNumber capacitySetting "18446744073709551616" .overflow) := by
  let settings (capacity : Bytes) (use : Option Bytes) : Environment := fun name =>
    if name = ttlSetting then some (Bytes.ofText "\u2003+007\n")
    else if name = policySetting then some (Bytes.ofText "LoG")
    else if name = capacitySetting then some capacity
    else if name = useCacheSetting then use
    else none
  have httl (capacity : Bytes) (use : Option Bytes) :
      Setting.cacheTtl.Gives (settings capacity use) 7 :=
    .spelled (t := "+007".toList) rfl (Text.trimsTo_iff.mpr (by decide))
      ⟨"007".toList, .inr (by decide), by decide, List.all_eq_true.mp (by decide), by decide⟩
  have hpolicy (capacity : Bytes) (use : Option Bytes) :
      Setting.policy.Gives (settings capacity use) .log :=
    .spelled (t := "LoG".toList) rfl (Text.trimsTo_iff.mpr (by decide))
      (show "LoG".toList.map Char.toLower = "log".toList by decide)
  have hcapacity : Setting.capacity.Gives (settings [0xff] none) 10000 := by
    refine .absent fun s hs => ?_
    have hbytes : [0xff] = Bytes.ofText s := Option.some.inj hs
    exact Bytes.ne_ff_of_mem_ofText (hbytes ▸ List.mem_singleton_self _) rfl
  have huse : Setting.useCache.Gives (settings [0xff] none) true := .absent fun s hs => nomatch hs
  have hlarge : Setting.capacity.Offends
      (settings (Bytes.ofText "18446744073709551616") (some (Bytes.ofText "maybe")))
      (.invalidNumber capacitySetting "18446744073709551616" .overflow) := by
    refine ⟨_, "18446744073709551616".toList, rfl, Text.trimsTo_iff.mpr (by decide), _, ?_, rfl⟩
    have hdigits : Text.unsigned "18446744073709551616".toList =
        "1844674407370955161".toList ++ '6' :: [] := by decide
    exact .overflow hdigits ⟨List.all_eq_true.mp (by decide), by decide⟩ (by decide) (by decide)
  exact ⟨settings [0xff] none,
    settings (Bytes.ofText "18446744073709551616") (some (Bytes.ofText "maybe")),
    rfl, rfl, rfl, rfl,
    ((ofEnvironment_eq_iff _).1 _).mpr ⟨⟨httl _ _, hpolicy _ _, hcapacity, huse⟩, by decide⟩,
    rfl, rfl, rfl, rfl,
    ((ofEnvironment_eq_iff _).2.1 _).mpr (.capacity (httl _ _) (hpolicy _ _) hlarge)⟩

end Config

end ObjectTiers

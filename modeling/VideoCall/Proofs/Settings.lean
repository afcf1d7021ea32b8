import Mathlib.Data.List.Forall2
import VideoCall.Proofs.Result
import VideoCall.Proofs.Text.Numeral
import VideoCall.Settings

/-!
# Which variables give settings

Variables give settings if they meet eight demands, and if they do not, the first one that they do
not meet is what the error tells. The demands are about the variables as they are written: what
counts as a number, and which items of a list name servers, is described without reading them.

## Main definitions

* `Settings.Says`, `Settings.Lists` : what the variables say of a number, and of the servers.
* `Settings.Demand` : what is demanded of the variables.
* `Settings.Refuses` : the error of the first demand that is not met.
* `Settings.Reads` : the settings that the variables describe.

## Main results

* `Settings.ofVariables_eq_error_iff` : there is an error if a demand is not met, and which one.
* `Settings.reads_of_ofVariables` : the settings are those that the variables describe.
* `Settings.ofVariables_settles` : all of it, for all variables.
-/

namespace VideoCall.Settings

variable (vars : Variables)

/-! ### What the variables say -/

/-- The variables say, of a number that has a usual value, that it is `n`. -/
def Says (name : String) (usual n : Nat) : Prop :=
  match vars.lookup name with
  | none => n = usual
  | some raw => Text.Numeral raw n

/-- The items of a list, between its commas, that are not blank. -/
def items (list : String) : List (List Char) :=
  (list.toList.splitOn ',').filter fun item => !item.all Text.isBlank

/-- The variables say which servers there are: for each item of the list one with a single URL, the
item trimmed. -/
def Lists (servers : List IceServer) : Prop :=
  match vars.lookup "PEERCALLS_ICE_SERVERS" with
  | none => servers = IceServer.defaults
  | some list =>
    List.Forall₂ (fun item server => ∃ url, Text.Trims item url ∧ server = .ofUrl (.ofList url))
      (items list) servers

/-- What is demanded of the variables. -/
inductive Demand
  /-- The relay's URL is there. -/
  | relayNamed
  /-- If there is a list of servers, then it has an item that is not blank. -/
  | serversNamed
  /-- A variable, if it is there, is a number. -/
  | number (name : String) (usual : Nat)
  /-- The relay's URL is not blank. -/
  | relayNotBlank
  /-- A number, called by `words`, is not zero. -/
  | notZero (name : String) (usual : Nat) (words : String)

namespace Demand

/-- All demands, in the order in which they are made. -/
def all : List Demand :=
  [.relayNamed, .serversNamed, .number "PEERCALLS_DIAL_TIMEOUT_MS" 10000,
    .number "PEERCALLS_RECORD_TIMEOUT_SECS" 15, .number "PEERCALLS_MAILBOX_CAPACITY" 256,
    .relayNotBlank, .notZero "PEERCALLS_DIAL_TIMEOUT_MS" 10000 "dial timeout",
    .notZero "PEERCALLS_MAILBOX_CAPACITY" 256 "mailbox capacity"]

/-- The variables meet a demand. -/
def Met : Demand → Prop
  | relayNamed => ∃ url, vars.lookup "PEERCALLS_RELAY_URL" = some url
  | serversNamed => ∀ list, vars.lookup "PEERCALLS_ICE_SERVERS" = some list → items list ≠ []
  | number name usual => ∃ n, Says vars name usual n
  | relayNotBlank => ∀ url, vars.lookup "PEERCALLS_RELAY_URL" = some url →
      ∃ c ∈ url.toList, Text.isBlank c = false
  | notZero name usual _ => ¬ Says vars name usual 0

/-- The error if the variables do not meet a demand. -/
def error : Demand → SettingsError
  | relayNamed => .missing "PEERCALLS_RELAY_URL"
  | serversNamed => .invalid "PEERCALLS_ICE_SERVERS contains no URLs"
  | number name _ => .invalid (name ++ "=" ++ (vars.lookup name).getD "")
  | relayNotBlank => .invalid "relay URL is empty"
  | notZero _ _ words => .invalid (words ++ " must be greater than 0")

end Demand

/-- The settings that the variables describe. -/
structure Reads (s : Settings) : Prop where
  relayUrl : vars.lookup "PEERCALLS_RELAY_URL" = some s.relayUrl
  recordUrl : s.recordUrl =
    (vars.lookup "PEERCALLS_RECORD_SERVICE_URL").getD "http://localhost:3000"
  iceServers : Lists vars s.iceServers
  dialTimeout : Says vars "PEERCALLS_DIAL_TIMEOUT_MS" 10000 s.dialTimeout
  recordTimeout : Says vars "PEERCALLS_RECORD_TIMEOUT_SECS" 15 s.recordTimeout
  mailboxCapacity : Says vars "PEERCALLS_MAILBOX_CAPACITY" 256 s.mailboxCapacity

/-- A result is there if a demand is met, and otherwise the error is that of the demand. -/
structure Tests {α : Type} (d : Demand) (x : Except SettingsError α) : Prop where
  met : ∀ a, x = .ok a → d.Met vars
  unmet : ∀ e, x = .error e → ¬ d.Met vars ∧ e = d.error vars

/-! ### Numbers -/

theorem number?_eq_ok_iff (name : String) (usual n : Nat) :
    number? vars name usual = .ok n ↔ Says vars name usual n := by
  unfold number? Says
  cases vars.lookup name with
  | none => simp [eq_comm]
  | some raw =>
    dsimp only
    rw [← Text.unsigned?_trim_eq_some_iff]
    cases Text.unsigned? (Text.trim raw) <;> simp

theorem tests_number? (name : String) (usual : Nat) :
    Tests vars (.number name usual) (number? vars name usual) where
  met n h := ⟨n, (number?_eq_ok_iff vars name usual n).1 h⟩
  unmet e h := by
    constructor
    · rintro ⟨n, hn⟩
      rw [(number?_eq_ok_iff vars name usual n).2 hn] at h
      cases h
    · unfold number? at h
      rw [Demand.error]
      cases hraw : vars.lookup name with
      | none =>
        rw [hraw] at h
        cases h
      | some raw =>
        rw [hraw] at h
        dsimp only at h
        split at h
        · cases h
        · exact (Except.error.inj h).symm

/-- The variables say no two numbers. -/
theorem Says.eq {name : String} {usual n k : Nat} (hn : Says vars name usual n)
    (hk : Says vars name usual k) : n = k := by
  rw [← number?_eq_ok_iff] at hn hk
  exact Except.ok.inj (hn.symm.trans hk)

/-! ### Servers -/

theorem splitCommas_eq (cs : List Char) : splitCommas cs = cs.splitOn ',' := by
  induction cs with
  | nil => rfl
  | cons c cs ih =>
    rw [splitCommas, List.splitOn_cons_eq_if_modifyHead, ih]
    by_cases h : c = ','
    · simp [h]
    · have hne := List.splitOn_ne_nil ',' cs
      rw [if_neg h, if_neg (by simpa using h)]
      cases hcs : cs.splitOn ',' with
      | nil => exact absurd hcs hne
      | cons piece pieces => rfl

theorem urls_eq (list : String) :
    urls list = (items list).map fun item => String.ofList (Text.trimChars item) := by
  rw [urls, items, splitCommas_eq, List.filter_map]
  congr 1
  refine List.filter_congr fun item _ => ?_
  rw [Function.comp_apply, Bool.eq_iff_iff, decide_eq_true_iff, Bool.not_eq_true', Ne,
    String.ofList_eq_empty_iff, Text.trimChars_eq_nil_iff, ← List.all_eq_true, Bool.not_eq_true]

theorem lists_of_iceServers? {servers : List IceServer} (h : iceServers? vars = .ok servers) :
    Lists vars servers := by
  unfold iceServers? at h
  unfold Lists
  cases hlist : vars.lookup "PEERCALLS_ICE_SERVERS" with
  | none =>
    rw [hlist] at h
    exact (Except.ok.inj h).symm
  | some list =>
    rw [hlist] at h
    dsimp only at h ⊢
    split at h
    · cases h
    · obtain rfl := Except.ok.inj h
      rw [urls_eq, List.map_map, List.forall₂_map_right_iff]
      exact List.forall₂_same.2 fun item _ => ⟨_, Text.trims_trimChars item, rfl⟩

theorem tests_iceServers? : Tests vars .serversNamed (iceServers? vars) := by
  unfold iceServers?
  cases hlist : vars.lookup "PEERCALLS_ICE_SERVERS" with
  | none => exact ⟨fun _ _ list h => (Option.some_ne_none list (h.symm.trans hlist)).elim, nofun⟩
  | some list =>
    have hempty : (urls list).isEmpty = true ↔ items list = [] := by
      rw [urls_eq, List.isEmpty_iff, List.map_eq_nil_iff]
    have hmet : Demand.serversNamed.Met vars ↔ items list ≠ [] := by
      simp [Demand.Met, hlist]
    dsimp only
    split
    · rename_i h
      exact ⟨nofun, fun e he => ⟨fun hm => hmet.1 hm (hempty.1 h), (Except.error.inj he).symm⟩⟩
    · rename_i h
      exact ⟨fun _ _ => hmet.2 (mt hempty.2 h), nofun⟩

/-! ### The first demand that is not met -/

/-- The error of the first of several demands that the variables do not meet. -/
def Refuses : List Demand → SettingsError → Prop
  | [], _ => False
  | d :: ds, e => d.Met vars ∧ Refuses ds e ∨ ¬ d.Met vars ∧ e = d.error vars

theorem refuses_iff (ds : List Demand) (e : SettingsError) :
    Refuses vars ds e ↔ ∃ before d after, ds = before ++ d :: after ∧
      (∀ d' ∈ before, d'.Met vars) ∧ ¬ d.Met vars ∧ e = d.error vars := by
  induction ds with
  | nil => simp [Refuses]
  | cons d ds ih =>
    rw [Refuses, ih]
    constructor
    · rintro (⟨hmet, before, d', after, rfl, hbefore, hunmet⟩ | hunmet)
      · exact ⟨d :: before, d', after, rfl, List.forall_mem_cons.2 ⟨hmet, hbefore⟩, hunmet⟩
      · exact ⟨[], d, ds, rfl, List.forall_mem_nil _, hunmet⟩
    · rintro ⟨before, d', after, hds, hbefore, hunmet⟩
      cases before with
      | nil =>
        obtain ⟨rfl, -⟩ := List.cons.inj hds
        exact .inr hunmet
      | cons d'' before =>
        obtain ⟨rfl, hrest⟩ := List.cons.inj hds
        obtain ⟨hmet, hbefore⟩ := List.forall_mem_cons.1 hbefore
        exact .inl ⟨hmet, before, d', after, hrest, hbefore, hunmet⟩

/-- Some demand is refused, unless all of them are met. -/
theorem exists_refuses_iff (ds : List Demand) :
    (∃ e, Refuses vars ds e) ↔ ¬ ∀ d ∈ ds, d.Met vars := by
  induction ds with
  | nil => simp [Refuses]
  | cons d ds ih =>
    rw [List.forall_mem_cons]
    by_cases hmet : d.Met vars
    · simp only [Refuses, hmet, true_and, not_true_eq_false, false_and, or_false]
      exact ih
    · simp [Refuses, hmet]

section Stages

variable {vars} {α β : Type} {x : Except SettingsError α} {f : α → Except SettingsError β}
  {d : Demand} {ds : List Demand} {e : SettingsError}

/-- What is read first is demanded first. -/
theorem bind_eq_error_iff (hx : Tests vars d x)
    (hf : ∀ a, x = .ok a → (f a = .error e ↔ Refuses vars ds e)) :
    x >>= f = .error e ↔ Refuses vars (d :: ds) e := by
  rw [Refuses]
  cases x with
  | error e' =>
    obtain ⟨hunmet, rfl⟩ := hx.unmet e' rfl
    change Except.error (d.error vars) = .error e ↔ _
    simp [hunmet, eq_comm]
  | ok a =>
    have hrest := hf a rfl
    change f a = .error e ↔ _
    simp [hx.met a rfl, hrest]

/-- What is checked first is demanded first. -/
theorem ite_eq_error_iff {c : Prop} [Decidable c] {e' : SettingsError}
    {x : Except SettingsError Unit} (hc : c ↔ ¬ d.Met vars) (he' : e' = d.error vars)
    (hrest : x = .error e ↔ Refuses vars ds e) :
    (if c then .error e' else x) = .error e ↔ Refuses vars (d :: ds) e := by
  rw [Refuses, he']
  by_cases hmet : d.Met vars
  · rw [if_neg fun h => hc.1 h hmet, hrest]
    simp [hmet]
  · rw [if_pos (hc.2 hmet)]
    simp [hmet, eq_comm]

end Stages

/-- The number that the variables say is zero if they say zero. -/
theorem Says.eq_zero_iff {name : String} {usual n : Nat} (h : Says vars name usual n)
    (words : String) : n = 0 ↔ ¬ (Demand.notZero name usual words).Met vars := by
  rw [Demand.Met, not_not]
  exact ⟨fun hn => hn ▸ h, h.eq vars⟩

/-- Settings that the variables describe are refused for the first demand that is not met, of those
that are left when all have been read. -/
theorem check_eq_error_iff {s : Settings} (h : Reads vars s) (e : SettingsError) :
    s.check = .error e ↔ Refuses vars [.relayNotBlank,
      .notZero "PEERCALLS_DIAL_TIMEOUT_MS" 10000 "dial timeout",
      .notZero "PEERCALLS_MAILBOX_CAPACITY" 256 "mailbox capacity"] e := by
  have hblank : Text.isAllBlank s.relayUrl = true ↔ ¬ Demand.relayNotBlank.Met vars := by
    rw [Text.isAllBlank, List.all_eq_true, Demand.Met, h.relayUrl]
    simp
  refine ite_eq_error_iff hblank rfl (ite_eq_error_iff (h.dialTimeout.eq_zero_iff vars _)
    rfl (ite_eq_error_iff (h.mailboxCapacity.eq_zero_iff vars _) rfl ?_))
  exact iff_of_false nofun id

/-- Variables are refused for the first demand that they do not meet. -/
theorem ofVariables_eq_error_iff (e : SettingsError) :
    ofVariables vars = .error e ↔ Refuses vars Demand.all e := by
  unfold ofVariables
  cases hrelay : vars.lookup "PEERCALLS_RELAY_URL" with
  | none =>
    have hunmet : ¬ Demand.relayNamed.Met vars := fun ⟨url, hurl⟩ =>
      Option.some_ne_none url (hurl.symm.trans hrelay)
    simp [Demand.all, Refuses, hunmet, Demand.error, eq_comm]
  | some relayUrl =>
    have hmet : Demand.relayNamed.Met vars := ⟨relayUrl, hrelay⟩
    have hall (ds : List Demand) : Refuses vars (.relayNamed :: ds) e ↔ Refuses vars ds e := by
      simp [Refuses, hmet]
    rw [Demand.all, hall]
    refine bind_eq_error_iff (tests_iceServers? vars) fun servers hservers =>
      bind_eq_error_iff (tests_number? vars _ _) fun dial hdial =>
      bind_eq_error_iff (tests_number? vars _ _) fun record hrecord =>
      bind_eq_error_iff (tests_number? vars _ _) fun mailbox hmailbox => ?_
    rw [number?_eq_ok_iff] at hdial hrecord hmailbox
    refine bind_pure_eq_error_iff.trans (check_eq_error_iff vars ?_ e)
    exact ⟨hrelay, rfl, lists_of_iceServers? vars hservers, hdial, hrecord, hmailbox⟩

/-! ### The settings -/

/-- The settings are those that the variables describe. -/
theorem reads_of_ofVariables {s : Settings} (h : ofVariables vars = .ok s) : Reads vars s := by
  unfold ofVariables at h
  cases hrelay : vars.lookup "PEERCALLS_RELAY_URL" with
  | none =>
    rw [hrelay] at h
    cases h
  | some relayUrl =>
    rw [hrelay] at h
    obtain ⟨servers, hservers, h⟩ := exists_of_bind_eq_ok h
    obtain ⟨dial, hdial, h⟩ := exists_of_bind_eq_ok h
    obtain ⟨record, hrecord, h⟩ := exists_of_bind_eq_ok h
    obtain ⟨mailbox, hmailbox, h⟩ := exists_of_bind_eq_ok h
    obtain ⟨-, -, h⟩ := exists_of_bind_eq_ok h
    obtain rfl := Except.ok.inj h
    rw [number?_eq_ok_iff] at hdial hrecord hmailbox
    exact ⟨hrelay, rfl, lists_of_iceServers? vars hservers, hdial, hrecord, hmailbox⟩

/-- For all variables:

* there are settings if, and only if, the variables meet all demands;
* these are the settings that the variables describe;
* otherwise the error is that of the first demand, in their order, that the variables do not
  meet. -/
theorem ofVariables_settles (vars : Variables) :
    ((∃ s, ofVariables vars = .ok s) ↔ ∀ d ∈ Demand.all, d.Met vars) ∧
    (∀ s, ofVariables vars = .ok s → Reads vars s) ∧
    ∀ e, ofVariables vars = .error e ↔ ∃ before d after, Demand.all = before ++ d :: after ∧
      (∀ d' ∈ before, d'.Met vars) ∧ ¬ d.Met vars ∧ e = d.error vars := by
  refine ⟨?_, fun s => reads_of_ofVariables vars, fun e =>
    (ofVariables_eq_error_iff vars e).trans (refuses_iff vars _ e)⟩
  have hrefuses := exists_refuses_iff vars Demand.all
  simp only [← ofVariables_eq_error_iff] at hrefuses
  cases h : ofVariables vars with
  | error e =>
    exact iff_of_false nofun (hrefuses.1 ⟨e, h⟩)
  | ok s =>
    refine iff_of_true ⟨s, rfl⟩ (not_not.1 fun hunmet => ?_)
    obtain ⟨e, he⟩ := hrefuses.2 hunmet
    cases h.symm.trans he

/-- A number that is none counts before a relay that is blank and a limit of zero. -/
example :
    ofVariables [("PEERCALLS_RELAY_URL", " "), ("PEERCALLS_DIAL_TIMEOUT_MS", "+0"),
      ("PEERCALLS_MAILBOX_CAPACITY", " -1")] =
        .error (.invalid "PEERCALLS_MAILBOX_CAPACITY= -1") :=
  rfl

end VideoCall.Settings

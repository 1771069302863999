import SharedPublisher.Coordinator.CommitValidity
import SharedPublisher.Node.Frames

/-!
# From the configuration to the process

`Config::load` takes the settings of a YAML file, or the defaults if there is none, lets environment
variables override them, completes addresses that start with a colon and checks the result; `main`
builds the process from it.  What is accepted is complete, and loading it once more changes
nothing: every variable stands for one setting and has the last word on it.  The checks are what
gives every instance time to be voted on.

Parsing YAML, durations and L1 addresses is left to the libraries that do it (`Loader`).
-/

namespace SharedPublisher

namespace PublisherConfig

structure ServerConfig where
  listenAddr : String
  maxMessageSize : UInt64
  deriving DecidableEq

structure ApiConfig where
  listenAddr : String
  requestTimeout : Duration
  deriving DecidableEq

structure ConsensusConfig where
  timeout : Duration
  periodDuration : Duration
  proofWindow : Duration
  deriving DecidableEq

structure MetricsConfig where
  enabled : Bool
  deriving DecidableEq

structure LogConfig where
  level : String
  pretty : Bool
  deriving DecidableEq

structure SettlementConfig where
  l1RpcUrl : String
  l2ooAddress : String
  proposerKey : String
  deriving DecidableEq

/-- The settings of a publisher. -/
structure Config where
  server : ServerConfig
  api : ApiConfig
  consensus : ConsensusConfig
  metrics : MetricsConfig
  log : LogConfig
  settlement : SettlementConfig
  mockMode : Bool
  deriving DecidableEq

/-- The settings where nothing is set. -/
def Config.default : Config where
  server := ⟨":8080", 4 * 1024 * 1024⟩
  api := ⟨":8081", 15 * 10 ^ 9⟩
  consensus := ⟨60 * 10 ^ 9, 3840 * 10 ^ 9, 7200 * 10 ^ 9⟩
  metrics := ⟨true⟩
  log := ⟨"info", false⟩
  settlement := ⟨"", "", ""⟩
  mockMode := false

/-- What the libraries parse. -/
structure Loader where
  parseYaml : String → Option Config
  parseDuration : String → Option Duration
  /-- Whether a text is the address of a contract. -/
  isAddress : String → Bool

/-- The environment variables. -/
abbrev Vars := String → Option String

/-! ## The variables -/

section Variables

variable {α : Type} (vars : Vars) (key : String)

/-- A variable that is set and can be parsed replaces a setting. -/
def envWith (parse : String → Option α) (target : α) : α := ((vars key).bind parse).getD target

def envStr (target : String) : String := envWith vars key some target

/-- The words for yes and no, in any case. -/
def parseBool (val : String) : Option Bool :=
  match val.toLower with
  | "true" | "1" | "yes" => some true
  | "false" | "0" | "no" => some false
  | _ => none

def envBool (target : Bool) : Bool := envWith vars key parseBool target

/-- A number of 64 bits in decimal digits, which may have a plus sign in front. -/
def parseUsize (val : String) : Option UInt64 :=
  let digits :=
    match val.toList with
    | '+' :: rest => rest
    | chars => chars
  if digits ≠ [] ∧ digits.all Char.isDigit = true then
    let value := Nat.ofDigitChars 10 digits 0
    if value < 2 ^ 64 then some (UInt64.ofNat value) else none
  else none

def envUsize (target : UInt64) : UInt64 := envWith vars key parseUsize target

def envDuration (L : Loader) (target : Duration) : Duration :=
  envWith vars key L.parseDuration target

end Variables

/-- Every setting that a variable is set for is replaced. -/
def Loader.applyEnvOverrides (L : Loader) (vars : Vars) (cfg : Config) : Config where
  server :=
    { listenAddr := envStr vars "SERVER_LISTEN_ADDR" cfg.server.listenAddr
      maxMessageSize := envUsize vars "SERVER_MAX_MESSAGE_SIZE" cfg.server.maxMessageSize }
  api :=
    { listenAddr := envStr vars "API_LISTEN_ADDR" cfg.api.listenAddr
      requestTimeout := envDuration vars "API_REQUEST_TIMEOUT" L cfg.api.requestTimeout }
  consensus :=
    { timeout := envDuration vars "CONSENSUS_TIMEOUT" L cfg.consensus.timeout
      periodDuration :=
        envDuration vars "CONSENSUS_PERIOD_DURATION" L cfg.consensus.periodDuration
      proofWindow := envDuration vars "CONSENSUS_PROOF_WINDOW" L cfg.consensus.proofWindow }
  metrics := { enabled := envBool vars "METRICS_ENABLED" cfg.metrics.enabled }
  log :=
    { level := envStr vars "LOG_LEVEL" cfg.log.level
      pretty := envBool vars "LOG_PRETTY" cfg.log.pretty }
  settlement :=
    { l1RpcUrl := envStr vars "SETTLEMENT_L1_RPC_URL" cfg.settlement.l1RpcUrl
      l2ooAddress := envStr vars "SETTLEMENT_L2OO_ADDRESS" cfg.settlement.l2ooAddress
      proposerKey := envStr vars "SETTLEMENT_PROPOSER_KEY" cfg.settlement.proposerKey }
  mockMode := envBool vars "MOCK_MODE" cfg.mockMode

/-! ## Addresses and checks -/

/-- Whether an address starts with the colon before its port. -/
def startsWithColon (addr : String) : Bool := addr.toList.head? == some ':'

/-- An address that starts with a colon is one on all interfaces. -/
def normalizeAddr (addr : String) : String :=
  if startsWithColon addr then "0.0.0.0" ++ addr else addr

def Config.normalize (cfg : Config) : Config :=
  { cfg with
    server := { cfg.server with listenAddr := normalizeAddr cfg.server.listenAddr }
    api := { cfg.api with listenAddr := normalizeAddr cfg.api.listenAddr } }

/-- The message of a check that failed. -/
def ensure (condition : Prop) [Decidable condition] (message : String) : Except String Unit :=
  if condition then .ok () else .error message

def Config.validate (cfg : Config) : Except String Unit := do
  ensure (cfg.server.listenAddr ≠ "") "server.listen_addr must not be empty"
  ensure (cfg.consensus.timeout ≠ 0) "consensus.timeout must be positive"
  ensure (cfg.consensus.periodDuration ≠ 0) "consensus.period_duration must be positive"
  ensure (cfg.consensus.proofWindow ≠ 0) "consensus.proof_window must be positive"

/-! ## Loading -/

/-- What stands under the path of the configuration. -/
inductive ConfigFile where
  | missing
  | unreadable
  | contents (text : String)

inductive LoadError where
  | reading (path : String)
  | parsing (path : String)
  | invalid (message : String)
  deriving DecidableEq

/-- The text of the error. -/
def LoadError.display : LoadError → String
  | .reading path => "reading config file " ++ path
  | .parsing path => "parsing config file " ++ path
  | .invalid message => message

/-- The settings before the environment is looked at. -/
def Loader.read (L : Loader) (path : String) : ConfigFile → Except LoadError Config
  | .missing => .ok .default
  | .unreadable => .error (.reading path)
  | .contents text => (L.parseYaml text).elim (.error (.parsing path)) .ok

def Loader.load (L : Loader) (path : String) (file : ConfigFile) (vars : Vars) :
    Except LoadError Config := do
  let cfg ← L.read path file
  let cfg := (L.applyEnvOverrides vars cfg).normalize
  cfg.validate.mapError LoadError.invalid
  return cfg

/-- Settings that a process can be built from. -/
structure Config.WellFormed (cfg : Config) : Prop where
  listenAddr : cfg.server.listenAddr ≠ ""
  noColon : startsWithColon cfg.server.listenAddr = false ∧
    startsWithColon cfg.api.listenAddr = false
  timeout : 0 < cfg.consensus.timeout
  periodDuration : 0 < cfg.consensus.periodDuration
  proofWindow : 0 < cfg.consensus.proofWindow

theorem ensure_bind_eq_ok_iff {α : Type} {condition : Prop} [Decidable condition] {message : String}
    {next : Unit → Except String α} {a : α} :
    (ensure condition message >>= next) = .ok a ↔ condition ∧ next () = .ok a := by
  unfold ensure
  split_ifs with h
  · exact (and_iff_right h).symm
  · exact iff_of_false (fun herror => by cases herror) fun hboth => h hboth.1

theorem startsWithColon_normalizeAddr (addr : String) :
    startsWithColon (normalizeAddr addr) = false := by
  unfold normalizeAddr
  split_ifs with h
  · simp [startsWithColon, String.toList_append]
  · simpa using h

theorem normalizeAddr_idem (addr : String) :
    normalizeAddr (normalizeAddr addr) = normalizeAddr addr := by
  rw [normalizeAddr, if_neg (by simp [startsWithColon_normalizeAddr])]

theorem envWith_idem {α : Type} (vars : Vars) (key : String) (parse : String → Option α)
    (target : α) :
    envWith vars key parse (envWith vars key parse target) = envWith vars key parse target := by
  unfold envWith
  cases (vars key).bind parse <;> rfl

/-- Completing an address before the variable is looked at makes no difference. -/
theorem normalizeAddr_envStr (vars : Vars) (key addr : String) :
    normalizeAddr (envStr vars key (normalizeAddr addr)) =
      normalizeAddr (envStr vars key addr) := by
  unfold envStr envWith
  cases vars key with
  | none => exact normalizeAddr_idem addr
  | some val => rfl

/-- Overriding and completing once more changes nothing. -/
theorem Loader.normalize_applyEnvOverrides_idem (L : Loader) (vars : Vars) (cfg : Config) :
    (L.applyEnvOverrides vars (L.applyEnvOverrides vars cfg).normalize).normalize =
      (L.applyEnvOverrides vars cfg).normalize := by
  simp only [applyEnvOverrides, Config.normalize, normalizeAddr_envStr, envBool, envUsize,
    envDuration, envWith_idem]
  simp only [envStr, envWith_idem]

theorem Config.validate_eq_ok_iff {cfg : Config} :
    cfg.validate = .ok () ↔ cfg.server.listenAddr ≠ "" ∧ cfg.consensus.timeout ≠ 0 ∧
      cfg.consensus.periodDuration ≠ 0 ∧ cfg.consensus.proofWindow ≠ 0 := by
  have hlast : ∀ message, ensure (cfg.consensus.proofWindow ≠ 0) message = .ok () ↔
      cfg.consensus.proofWindow ≠ 0 := fun message => by simp [ensure]
  rw [validate, ensure_bind_eq_ok_iff, ensure_bind_eq_ok_iff, ensure_bind_eq_ok_iff, hlast]

theorem Loader.load_eq_ok_iff {L : Loader} {path : String} {file : ConfigFile} {vars : Vars}
    {cfg : Config} :
    L.load path file vars = .ok cfg ↔ ∃ base, L.read path file = .ok base ∧
      cfg = (L.applyEnvOverrides vars base).normalize ∧ cfg.validate = .ok () := by
  unfold load
  cases hread : L.read path file with
  | error e => simp [bind, Except.bind]
  | ok base =>
    simp only [bind, Except.bind, Except.ok.injEq, exists_eq_left']
    cases hvalid : (L.applyEnvOverrides vars base).normalize.validate with
    | error message =>
      refine iff_of_false (fun herror => by cases herror) ?_
      rintro ⟨rfl, hok⟩
      cases hvalid.symm.trans hok
    | ok =>
      refine ⟨fun h => ?_, fun h => ?_⟩
      · obtain rfl := Except.ok.inj h
        exact ⟨rfl, hvalid⟩
      · rw [h.1]
        rfl

theorem Loader.wellFormed_of_load {L : Loader} {path : String} {file : ConfigFile} {vars : Vars}
    {cfg : Config} (h : L.load path file vars = .ok cfg) : cfg.WellFormed := by
  obtain ⟨base, -, rfl, hvalid⟩ := load_eq_ok_iff.mp h
  obtain ⟨haddr, htimeout, hperiod, hwindow⟩ := Config.validate_eq_ok_iff.mp hvalid
  exact ⟨haddr, ⟨startsWithColon_normalizeAddr _, startsWithColon_normalizeAddr _⟩,
    Nat.pos_of_ne_zero htimeout, Nat.pos_of_ne_zero hperiod, Nat.pos_of_ne_zero hwindow⟩

/-! ## The process -/

/-- Whether `main` builds a submitter for L1: all settings are there, and the address is one. -/
def SettlementConfig.settles (s : SettlementConfig) (L : Loader) : Bool :=
  s.l1RpcUrl ≠ "" && s.l2ooAddress ≠ "" && s.proposerKey ≠ "" && L.isAddress s.l2ooAddress

/-- The process that `main` builds. -/
def Config.node {C S : Type} (cfg : Config) (L : Loader) (sha256 : List UInt8 → InstanceId)
    (messages : MessageCodec) (stableId : C → S) : NodeConfig C S where
  coordinator := ⟨sha256, cfg.consensus.timeout, cfg.consensus.proofWindow⟩
  server := ⟨⟨cfg.server.maxMessageSize⟩, stableId⟩
  messages := messages
  settles := cfg.settlement.settles L

end PublisherConfig

open PublisherConfig in
/-- **What a configuration that loads is good for.**  The address of the server is not empty,
neither address starts with a colon, and the timeout, the period and the proof window are positive.
A file with these settings loads as the same configuration, in the same environment.  And in every
run of the process that is built from it, whatever its digest and its codec, an instance that the
reaper aborts has had the configured timeout, and some time at all, since its start. -/
theorem loaded_config_sound {L : Loader} {path : String} {file : ConfigFile} {vars : Vars}
    {cfg : PublisherConfig.Config} (hload : L.load path file vars = .ok cfg) :
    cfg.WellFormed ∧
    (∀ path' text, L.parseYaml text = some cfg → L.load path' (.contents text) vars = .ok cfg) ∧
    ∀ {C S : Type} [DecidableEq C] [DecidableEq S] (sha256 : List UInt8 → InstanceId)
      (messages : MessageCodec) (stableId : C → S) (latest : Option (UInt64 × B256))
      (r : (cfg.node L sha256 messages stableId).Run latest) (i : ℕ) (now : Instant)
      (order : List String) (b : List UInt8), r.sections.label i = .reapTimedOutXts now order →
        r.sections.Decides i b false →
        ∃ j req t, j < i ∧ r.sections.Starts j b req ∧ r.sections.StartsAt j t ∧
          t + cfg.consensus.timeout ≤ now ∧ t < now := by
  have hgood := Loader.wellFormed_of_load hload
  refine ⟨hgood, fun path' text htext => ?_, ?_⟩
  · obtain ⟨base, -, rfl, hvalid⟩ := Loader.load_eq_ok_iff.mp hload
    refine Loader.load_eq_ok_iff.mpr ⟨(L.applyEnvOverrides vars base).normalize, ?_, ?_, hvalid⟩
    · rw [Loader.read, htext]
      rfl
    · exact (L.normalize_applyEnvOverrides_idem vars base).symm
  · intro C S _ _ sha256 messages stableId latest r i now order b hreap hdecides
    obtain ⟨xt, j, req, -, hopen, hcause⟩ := r.sections.decides_cases hdecides
    rcases hcause with ⟨c, v, now', hvote, -⟩ | ⟨-, now', order', hreap', hage⟩
    · cases hvote.symm.trans hreap
    · cases hreap'.symm.trans hreap
      have htimeout : 0 < cfg.consensus.timeout := hgood.timeout
      have helapsed : cfg.consensus.timeout ≤ now - xt.startTime := hage
      have hlt : xt.startTime < now := Nat.lt_of_sub_pos (htimeout.trans_le helapsed)
      exact ⟨j, req, xt.startTime, hopen.before, hopen.start, hopen.time,
        Nat.add_le_of_le_sub' hlt.le helapsed, hlt⟩

namespace PublisherConfig

/-- Libraries that parse nothing. -/
def Loader.none : Loader := ⟨fun _ => Option.none, fun _ => Option.none, fun _ => false⟩

/-- What a publisher without a file and without variables runs with. -/
def Config.unset : Config := Config.default.normalize

/-- A client asks for an instance, nobody votes, and the reaper comes after a minute. -/
def timeoutRun : (Config.unset.node Loader.none sha256 .plain (id : ℕ → ℕ)).Run Option.none :=
  NodeConfig.runOf _ _
    [.connect 0 [0, 0, 0, 1, 49] 0,
      .receive 0 (streamOf ⟨"1", some (.xtRequest transferRequest)⟩) 1,
      .act (.spawned 1) (.at 10 []), .act (.spawned 1) (.at 20 []), .reap,
      .act .reaperLoop ⟨60000000020, [hexEncode transferId], [], [], true⟩] (by decide +kernel)

end PublisherConfig

open PublisherConfig in
theorem loaded_config_sound_timeoutRun :
    Loader.none.load "config.yaml" .missing (fun _ => none) = .ok Config.unset ∧
      ∃ j req t, timeoutRun.sections.Starts j transferId req ∧
        timeoutRun.sections.StartsAt j t ∧ t < 60000000020 := by
  have hload : Loader.none.load "config.yaml" .missing (fun _ => none) = .ok Config.unset := by
    decide +kernel
  have hdecides : ⟨transferId, false⟩ ∈ (timeoutRun.sections.out 5).decisions := by
    decide +kernel
  refine ⟨hload, ?_⟩
  obtain ⟨j, req, t, -, hstarts, htime, -, hlt⟩ := (loaded_config_sound hload).2.2 sha256
    .plain (id : ℕ → ℕ) none timeoutRun 5 60000000020 [hexEncode transferId] transferId rfl hdecides
  exact ⟨j, req, t, hstarts, htime, hlt⟩

end SharedPublisher

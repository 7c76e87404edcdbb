import Mathlib.Data.List.Basic

namespace TrojanServer.Config

inductive LogLevel where
  | trace
  | debug
  | info
  | warn
  | error
  deriving Repr, DecidableEq

def LogLevel.fromStr (s : String) : Option LogLevel :=
  match s.toLower with
  | "trace" => some .trace
  | "debug" => some .debug
  | "info" => some .info
  | "warn" => some .warn
  | "error" => some .error
  | _ => none

inductive MaxConnections where
  | auto
  | fixed (n : Nat)
  deriving Repr, DecidableEq

/-- A path with the extension that `std::path` finds in it. -/
structure ConfPath where
  text : String
  extension : Option String

/-- The arguments that are validated; durations are in nanoseconds. -/
structure CliArgs where
  api : String
  token : String
  node : Int
  certFile : String
  keyFile : String
  fetchUsersInterval : Nat
  reportTrafficsInterval : Nat
  heartbeatInterval : Nat
  apiTimeout : Nat
  logMode : String
  aclConfFile : Option ConfPath
  connIdleTimeout : Nat
  tcpConnectTimeout : Nat
  requestTimeout : Nat
  tlsHandshakeTimeout : Nat
  bufferSize : Nat
  tcpBacklog : Int
  uplinkOnlyTimeout : Nat
  downlinkOnlyTimeout : Nat
  maxConnections : MaxConnections

def maxBufferSize : Nat := 4 * 1024 * 1024

def second : Nat := 1000000000

/-- Thirty days. -/
def maxDuration : Nat := 30 * 24 * 3600 * second

/-- `tokio::sync::Semaphore::MAX_PERMITS`, an eighth of the largest word. -/
def maxPermits : Nat := 2305843009213693951

/-- A condition that must not hold, and the error if it does. -/
abbrev Check := Bool × String

def firstFailure : List Check → Except String Unit
  | [] => .ok ()
  | (failed, message) :: checks => if failed then .error message else firstFailure checks

namespace CliArgs

variable (exist : String → Bool) (args : CliArgs)

def positiveDurations : List Check :=
  [("tcp_connect_timeout", args.tcpConnectTimeout), ("request_timeout", args.requestTimeout),
    ("tls_handshake_timeout", args.tlsHandshakeTimeout)].map fun (name, d) =>
      (d == 0, name ++ " must be greater than 0")

def wholeSecondDurations : List Check :=
  [("conn_idle_timeout", args.connIdleTimeout), ("uplink_only_timeout", args.uplinkOnlyTimeout),
    ("downlink_only_timeout", args.downlinkOnlyTimeout),
    ("api_timeout", args.apiTimeout)].map fun (name, d) =>
      (decide (d < second), name ++ " must be at least 1s")

def boundedDurations : List Check :=
  [("conn_idle_timeout", args.connIdleTimeout), ("uplink_only_timeout", args.uplinkOnlyTimeout),
    ("downlink_only_timeout", args.downlinkOnlyTimeout), ("api_timeout", args.apiTimeout),
    ("tcp_connect_timeout", args.tcpConnectTimeout), ("request_timeout", args.requestTimeout),
    ("tls_handshake_timeout", args.tlsHandshakeTimeout),
    ("fetch_users_interval", args.fetchUsersInterval),
    ("report_traffics_interval", args.reportTrafficsInterval),
    ("heartbeat_interval", args.heartbeatInterval)].map fun (name, d) =>
      (decide (maxDuration < d), name ++ " must be at most 30days")

def aclChecks : List Check :=
  match args.aclConfFile with
  | none => []
  | some path =>
      let ext := (path.extension.getD "").toLower
      [(!exist path.text, "ACL config file not found: " ++ path.text),
        (ext != "yaml" && ext != "yml",
          "Invalid ACL config file format: expected .yaml or .yml extension")]

def tooManyConnections : Bool :=
  match args.maxConnections with
  | .auto => false
  | .fixed n => decide (maxPermits < n)

def checks : List Check :=
  [(args.api.isEmpty, "API endpoint URL is required"),
    (args.token.isEmpty, "API token is required"),
    (decide (args.node ≤ 0), "Node ID must be a positive integer"),
    (args.certFile.isEmpty, "TLS certificate file path is required (--cert-file)"),
    (args.keyFile.isEmpty, "TLS private key file path is required (--key-file)"),
    (!exist args.certFile, "TLS certificate file not found: " ++ args.certFile),
    (!exist args.keyFile, "TLS private key file not found: " ++ args.keyFile),
    (args.fetchUsersInterval == 0, "fetch_users_interval must be greater than 0"),
    (args.reportTrafficsInterval == 0, "report_traffics_interval must be greater than 0"),
    (args.heartbeatInterval == 0, "heartbeat_interval must be greater than 0"),
    -- a zero relay buffer makes every read return 0 bytes
    (args.bufferSize == 0, "buffer_size must be greater than 0"),
    (decide (maxBufferSize < args.bufferSize),
      "buffer_size must be at most " ++ toString maxBufferSize),
    ((LogLevel.fromStr args.logMode).isNone,
      "Invalid log_mode '" ++ args.logMode ++ "'. Use trace, debug, info, warn or error")] ++
  args.positiveDurations ++
  [(decide (args.tcpBacklog ≤ 0), "tcp_backlog must be greater than 0"),
    (args.tooManyConnections, "max_connections must be at most " ++ toString maxPermits)] ++
  args.wholeSecondDurations ++ args.boundedDurations ++ args.aclChecks exist

def validate : Except String Unit := firstFailure (args.checks exist)

end CliArgs

theorem firstFailure_eq_ok_iff (checks : List Check) :
    firstFailure checks = .ok () ↔ ∀ check ∈ checks, check.1 = false := by
  induction checks with
  | nil => simp [firstFailure]
  | cons check checks ih =>
      obtain ⟨failed, message⟩ := check
      cases failed with
      | true => simp [firstFailure]
      | false => simpa [firstFailure] using ih

/-- The buffer sizes that pass. -/
theorem bufferSize_of_validate {exist : String → Bool} {args : CliArgs}
    (h : args.validate exist = .ok ()) : 0 < args.bufferSize ∧ args.bufferSize ≤ maxBufferSize := by
  rw [CliArgs.validate, firstFailure_eq_ok_iff] at h
  have hzero := h (args.bufferSize == 0, "buffer_size must be greater than 0")
    (by simp [CliArgs.checks])
  have hlarge := h (decide (maxBufferSize < args.bufferSize),
    "buffer_size must be at most " ++ toString maxBufferSize) (by simp [CliArgs.checks])
  simp only [beq_eq_false_iff_ne, decide_eq_false_iff_not] at hzero hlarge
  omega

/-- Every argument but the required ones at its default. -/
def defaultArgs (bufferSize : Nat) : CliArgs where
  api := "https://api.example.com"
  token := "test-token"
  node := 1
  certFile := "/root/.cert/server.crt"
  keyFile := "/root/.cert/server.key"
  fetchUsersInterval := 60 * second
  reportTrafficsInterval := 80 * second
  heartbeatInterval := 180 * second
  apiTimeout := 30 * second
  logMode := "info"
  aclConfFile := none
  connIdleTimeout := 300 * second
  tcpConnectTimeout := 5 * second
  requestTimeout := 5 * second
  tlsHandshakeTimeout := 10 * second
  bufferSize := bufferSize
  tcpBacklog := 1024
  uplinkOnlyTimeout := 2 * second
  downlinkOnlyTimeout := 5 * second
  maxConnections := .auto

/-- The defaults pass with every buffer size of the range. -/
theorem validate_defaultArgs {bufferSize : Nat} (hpos : 0 < bufferSize)
    (hle : bufferSize ≤ maxBufferSize) :
    (defaultArgs bufferSize).validate (fun _ => true) = .ok () := by
  have hzero : bufferSize ≠ 0 := Nat.pos_iff_ne_zero.mp hpos
  have hlog : LogLevel.fromStr "info" = some .info := by decide +kernel
  simp [CliArgs.validate, CliArgs.checks, firstFailure, CliArgs.positiveDurations,
    CliArgs.wholeSecondDurations, CliArgs.boundedDurations, CliArgs.aclChecks,
    CliArgs.tooManyConnections, defaultArgs, second, maxDuration, hzero, hlog,
    Nat.not_lt.mpr hle]

end TrojanServer.Config

import ReverseProxy.Fleet.Record

/-!
# Settings

What the proxy is set up with.  Every section and every field may be left out, save the fields of a
section that has no meaning without them.
-/

namespace ReverseProxy.Settings

open Fleet

/-- A number below `2 ^ 64`. -/
def word (d : Datum) : Except Misfit Nat := d.asNat 18446744073709551616

/-- The certificate that the proxy shows to its clients, and the key to it. -/
structure Tls where
  certPath : String
  keyPath : String
deriving DecidableEq, Repr

/-- Where and how clients are received. -/
structure Listener where
  bindAddress : String := "0.0.0.0:8080"
  tls : Option Tls := none
  maxConnections : Nat := 10000
  nodelay : Bool := true
deriving DecidableEq, Repr

/-- How many workers there are; one for each processor if `threads` says nothing. -/
structure Workers where
  threads : Option Nat := none
deriving DecidableEq, Repr

/-- The capacity of the buffers, `bufferSize`, which is also the limit for the head of a message. -/
structure Buffers where
  bufferSize : Nat := 16384
deriving DecidableEq, Repr

/-- The times allowed, in seconds. -/
structure Timeouts where
  connect : Nat := 5
  read : Nat := 30
  write : Nat := 30
  keepAlive : Nat := 60
  drain : Nat := 10
deriving DecidableEq, Repr

/-- How nodes that are down are looked after. -/
structure HealthCheck where
  enabled : Bool := true
  intervalSecs : Nat := 5
  probeTimeoutSecs : Nat := 2
deriving DecidableEq, Repr

/-- Who is trusted to vouch for the nodes that are reached by encrypted connections. -/
structure BackendTls where
  caPath : Option String := none
deriving DecidableEq, Repr

/-- What is made known about the proxy at work. -/
structure Observability where
  logLevel : String := "info"
  metricsEnabled : Bool := false
  metricsAddress : String := "0.0.0.0:9090"
deriving DecidableEq, Repr

/-- How the proxy is administered. -/
structure Admin where
  enabled : Bool := false
  apiKey : String := "CHANGE_ME_IN_PRODUCTION"
  bindAddress : String := "127.0.0.1:8081"
deriving DecidableEq, Repr

/-- What the proxy is set up with. -/
structure Config where
  listener : Listener := {}
  workers : Workers := {}
  buffers : Buffers := {}
  timeouts : Timeouts := {}
  healthCheck : HealthCheck := {}
  backendTls : BackendTls := {}
  balancers : List BalancerRecord := []
  nodes : List NodeRecord := []
  observability : Observability := {}
  admin : Admin := {}
deriving DecidableEq, Repr

/-!
 ### Reading

Settings are read from tables or from lists of values; a list that goes on too long is read as far
as it goes.
-/

/-- Reads a record by `shape`, passing over what a list has too much. -/
def section? {α : Type} (shape : RecordShape α) (d : Datum) : Except Misfit α := shape.read none d

/-- How a certificate and its key are written down. -/
def Tls.shape : RecordShape Tls where
  names := ["cert_path", "key_path"]
  required := 2
  initial := { certPath := "", keyPath := "" }
  put r name d := match name with
    | "cert_path" => d.asText.map fun certPath => { r with certPath }
    | "key_path" => d.asText.map fun keyPath => { r with keyPath }
    | _ => d.skip.map fun _ => r

/-- How the section on clients is written down. -/
def Listener.shape : RecordShape Listener where
  names := ["bind_address", "tls", "max_connections", "nodelay"]
  required := 0
  initial := {}
  put r name d := match name with
    | "bind_address" => d.asText.map fun bindAddress => { r with bindAddress }
    | "tls" => (section? Tls.shape d).map fun tls => { r with tls := some tls }
    | "max_connections" => (word d).map fun maxConnections => { r with maxConnections }
    | "nodelay" => d.asBool.map fun nodelay => { r with nodelay }
    | _ => d.skip.map fun _ => r

/-- How the section on workers is written down. -/
def Workers.shape : RecordShape Workers where
  names := ["worker_threads"]
  required := 0
  initial := {}
  put r name d := match name with
    | "worker_threads" => (word d).map fun n => { r with threads := some n }
    | _ => d.skip.map fun _ => r

/-- How the section on buffers is written down. -/
def Buffers.shape : RecordShape Buffers where
  names := ["buffer_size"]
  required := 0
  initial := {}
  put r name d := match name with
    | "buffer_size" => (word d).map fun bufferSize => { r with bufferSize }
    | _ => d.skip.map fun _ => r

/-- How the section on times is written down. -/
def Timeouts.shape : RecordShape Timeouts where
  names := ["connect_secs", "read_secs", "write_secs", "keep_alive_secs", "drain_secs"]
  required := 0
  initial := {}
  put r name d := match name with
    | "connect_secs" => (word d).map fun connect => { r with connect }
    | "read_secs" => (word d).map fun read => { r with read }
    | "write_secs" => (word d).map fun write => { r with write }
    | "keep_alive_secs" => (word d).map fun keepAlive => { r with keepAlive }
    | "drain_secs" => (word d).map fun drain => { r with drain }
    | _ => d.skip.map fun _ => r

/-- How the section on health is written down. -/
def HealthCheck.shape : RecordShape HealthCheck where
  names := ["enabled", "interval_secs", "probe_timeout_secs"]
  required := 0
  initial := {}
  put r name d := match name with
    | "enabled" => d.asBool.map fun enabled => { r with enabled }
    | "interval_secs" => (word d).map fun intervalSecs => { r with intervalSecs }
    | "probe_timeout_secs" => (word d).map fun probeTimeoutSecs => { r with probeTimeoutSecs }
    | _ => d.skip.map fun _ => r

/-- How the section on trust is written down. -/
def BackendTls.shape : RecordShape BackendTls where
  names := ["ca_path"]
  required := 0
  initial := {}
  put r name d := match name with
    | "ca_path" => d.asText.map fun path => { r with caPath := some path }
    | _ => d.skip.map fun _ => r

/-- How the section on what is made known is written down. -/
def Observability.shape : RecordShape Observability where
  names := ["log_level", "metrics_enabled", "metrics_address"]
  required := 0
  initial := {}
  put r name d := match name with
    | "log_level" => d.asText.map fun logLevel => { r with logLevel }
    | "metrics_enabled" => d.asBool.map fun metricsEnabled => { r with metricsEnabled }
    | "metrics_address" => d.asText.map fun metricsAddress => { r with metricsAddress }
    | _ => d.skip.map fun _ => r

/-- How the section on administration is written down. -/
def Admin.shape : RecordShape Admin where
  names := ["enabled", "api_key", "bind_address"]
  required := 0
  initial := {}
  put r name d := match name with
    | "enabled" => d.asBool.map fun enabled => { r with enabled }
    | "api_key" => d.asText.map fun apiKey => { r with apiKey }
    | "bind_address" => d.asText.map fun bindAddress => { r with bindAddress }
    | _ => d.skip.map fun _ => r

/-- How settings are written down. -/
def Config.shape : RecordShape Config where
  names := ["listener", "runtime", "buffers", "timeouts", "health_check",
    "backend_tls", "balancers", "nodes", "observability", "admin"]
  required := 0
  initial := {}
  put r name d := match name with
    | "listener" => (section? Listener.shape d).map fun listener => { r with listener }
    | "runtime" => (section? Workers.shape d).map fun workers => { r with workers }
    | "buffers" => (section? Buffers.shape d).map fun buffers => { r with buffers }
    | "timeouts" => (section? Timeouts.shape d).map fun timeouts => { r with timeouts }
    | "health_check" => (section? HealthCheck.shape d).map fun healthCheck => { r with healthCheck }
    | "backend_tls" => (section? BackendTls.shape d).map fun backendTls => { r with backendTls }
    | "balancers" =>
        (d.asList (section? BalancerRecord.shape)).map fun balancers => { r with balancers }
    | "nodes" => (d.asList (section? NodeRecord.shape)).map fun nodes => { r with nodes }
    | "observability" =>
        (section? Observability.shape d).map fun observability => { r with observability }
    | "admin" => (section? Admin.shape d).map fun admin => { r with admin }
    | _ => d.skip.map fun _ => r

/-! ### Writing -/

/-- The settings as a `Datum` with all their sections and fields. -/
def Config.toDatum (c : Config) : Datum :=
  let tls (t : Tls) : Datum :=
    .record [("cert_path", .text t.certPath), ("key_path", .text t.keyPath)]
  .record [
    ("listener", .record [("bind_address", .text c.listener.bindAddress),
      ("tls", .ofOption (c.listener.tls.map tls)),
      ("max_connections", .ofNat c.listener.maxConnections),
      ("nodelay", .bool c.listener.nodelay)]),
    ("runtime", .record [("worker_threads", .ofOption (c.workers.threads.map .ofNat))]),
    ("buffers", .record [("buffer_size", .ofNat c.buffers.bufferSize)]),
    ("timeouts",
      .record [("connect_secs", .ofNat c.timeouts.connect), ("read_secs", .ofNat c.timeouts.read),
        ("write_secs", .ofNat c.timeouts.write), ("keep_alive_secs", .ofNat c.timeouts.keepAlive),
        ("drain_secs", .ofNat c.timeouts.drain)]),
    ("health_check", .record [("enabled", .bool c.healthCheck.enabled),
      ("interval_secs", .ofNat c.healthCheck.intervalSecs),
      ("probe_timeout_secs", .ofNat c.healthCheck.probeTimeoutSecs)]),
    ("backend_tls", .record [("ca_path", .ofOption (c.backendTls.caPath.map .text))]),
    ("balancers", .list (c.balancers.map BalancerRecord.toDatum)),
    ("nodes", .list (c.nodes.map NodeRecord.toDatum)),
    ("observability", .record [("log_level", .text c.observability.logLevel),
      ("metrics_enabled", .bool c.observability.metricsEnabled),
      ("metrics_address", .text c.observability.metricsAddress)]),
    ("admin", .record [("enabled", .bool c.admin.enabled), ("api_key", .text c.admin.apiKey),
      ("bind_address", .text c.admin.bindAddress)])]

end ReverseProxy.Settings

import Switchyard.Rehearsal.Machine
/-!
How the components of a rehearsal are built, in which order, and what they write meanwhile.
-/
namespace Switchyard.Rehearsal

structure BreakerSetup where
  config : Breaker.Config
  callback : Callback

structure ServiceSetup where
  breaker : Option BreakerSetup
  cache : Option State.CacheConfig

structure MediatorSetup where
  recovery : Bool
  /-- The trace is told of trapped panics. -/
  traced : Bool
  slow : Option Span
  stages : List NamedStage

structure BusSetup where
  messaging : Bool
  ignoreMissing : Bool
  breaker : Option BreakerSetup

structure AppSetup where
  hasStore : Bool
  messaging : Bool
  recovery : Bool
  shared : Bool
  slow : Option Span
  bus : BusSetup
  service : ServiceSetup
  stages : List NamedStage

structure Setup where
  seed : List (String × Json)
  latency : Option Span
  breaker : Option BreakerSetup
  cache : Option State.CacheConfig
  service : Option ServiceSetup
  mediator : Option MediatorSetup
  bus : Option BusSetup
  app : Option AppSetup

namespace Setup

open Act

def hand (p : Part) : Act Unit := modify fun w => { w with handles := w.handles ++ [p] }

def buildCircuit (id : BreakerId) (b : BreakerSetup) (logger : Log.Logger) : Act Unit := do
  let config := { b.config with logger }
  log logger [Breaker.opening config]
  modify fun w =>
    { w with circuits := w.circuits.filter (·.1 ≠ id) ++ [(id, ⟨Breaker.make config w.now, b.callback⟩)] }

def standard (name : String) : BreakerSetup := ⟨.named name, .none⟩

def buildCache (config : State.CacheConfig) : Act Unit := do
  modify fun w => { w with cache := some ⟨config, .empty, .ofCapacity config.capacity, false, false, []⟩ }
  let work : List Call :=
    (if config.cleanup = 0 then [] else [.sweeper]) ++ (if config.batch then [.writer .idle] else [])
  let tasks ← work.mapM (spawn .background)
  modify fun w => { w with cache := w.cache.map fun c => { c with tasks } }
  log config.logger [State.started config]
  hand .cache

/-- Lets a cache go before anything was asked of it: its tasks end, and its batch writer says so. -/
def dismissCache : Act Unit := do
  if let some c := (← get).cache then
    c.tasks.forM fun id => modifyTask id ({ · with doomed := true })
    if c.config.batch then
      let _ ← spawn .background (.endWriter c.config.logger)
    modify fun w => { w with cache := none, handles := w.handles.filter (· ≠ .cache) }

/-- The cache of a service stands for the one before it, also if the service has none. -/
def buildService (s : ServiceSetup) (logger : Log.Logger) : Act Unit := do
  dismissCache
  if let some config := s.cache then buildCache { config with logger }
  modify fun w => { w with service := some ⟨s.cache.isSome, logger⟩ }
  buildCircuit .service (s.breaker.getD (standard "state")) logger
  hand .service

def register (stages : List NamedStage) : Act Unit :=
  stages.forM fun s => do
    if let some m := (← get).mediator then
      let _ ← Steps.addStage (← Steps.settled s) m

/-- A mediator whose first stage traps panics, unless that is left out. -/
def buildMediator (recovery traced : Bool) (slow : Option Span) (logger : Log.Logger) : Act Unit := do
  let config : Dispatch.Config := { logger, slow := slow.getD (Span.ofMillis 500) }
  Steps.setMediator ⟨config, .empty, .empty, []⟩
  if recovery then register [⟨"recovery", .recovery traced, logger⟩]
  hand .mediator

def buildBus (b : BusSetup) (logger : Log.Logger) : Act Unit := do
  buildCircuit .bus (b.breaker.getD (standard "events")) logger
  modify fun w => { w with bus := some (.make b.ignoreMissing b.messaging logger) }
  hand .bus

/-- Within the application the bus is drained by a stage of its own, and those listed let everything pass. -/
def listed (logger : Log.Logger) (s : NamedStage) : NamedStage :=
  match s.stage with
  | .publishEvents => ⟨Steps.unnamed, .passThrough Steps.unnamed, logger⟩
  | _ => { s with logger }

def buildApp (a : AppSetup) : Act Unit := do
  let own (name : String) : Log.Logger := .withTarget (if a.shared then "L.app" else name)
  let logger := own "L.mediator"
  buildMediator a.recovery false a.slow logger
  buildBus { a.bus with messaging := a.messaging } (own "L.events")
  register [⟨"publish-events", .publishEvents, logger⟩]
  register (a.stages.map (listed (own "L.stage")))
  buildService a.service (own "L.state")
  modify fun w => { w with app := some logger }
  log logger [App.built ((← get).mediator.elim 0 (·.stages.length))]
  hand .app

/-- Breaker, cache, service, mediator and bus are built in this order, and the application last. -/
def build (s : Setup) : Act Unit := do
  modify fun w =>
    let store := s.seed.foldl (fun st kv => st.seed kv.1 kv.2) w.store
    { w with store := { store with latency := s.latency } }
  if let some b := s.breaker then
    buildCircuit .bare b .plain
    hand .breaker
  if let some config := s.cache then buildCache config
  if let some service := s.service then buildService service .plain
  if let some m := s.mediator then
    buildMediator m.recovery m.traced m.slow .plain
    if let some b := s.bus then buildBus b .plain
    register m.stages
  if let some a := s.app then buildApp a

end Setup
end Switchyard.Rehearsal

import Switchyard.Proofs.History
import Switchyard.Proofs.State.Channel
import Switchyard.Proofs.State.Recall
import Switchyard.Rehearsal.Frame
/-!
The cache among its callers and its batch writer, in front of a store. Calls come and go in any order of their steps;
the store does what it is asked at some moment between the question and the answer, or fails; a call may be dropped
wherever it waits, time passes and sweeps happen at any moment, and the writer takes whichever turn is open to it. What
a step does to memory and to the channel is what their own functions do. What happens is written down as marks.
-/
namespace Switchyard.State

open Rehearsal (AfterFlush)

inductive Worker where
  /-- There is none, or it has ended. -/
  | gone
  | idle
  | gathering (window : List KeyValue) (due : Instant)
  /-- The store has the window and has not done it. -/
  | flushing (window : List KeyValue) (after : AfterFlush)
  | resting (after : AfterFlush)

namespace Worker

def window : Worker → List KeyValue
  | gathering window _ | flushing window _ => window
  | _ => []

def ofWriter : Writer → Worker
  | .idle => idle
  | .window items due _ => gathering items due

def ofTurn : Turn → Worker
  | .wait w => ofWriter w
  | .flush items last => flushing items (if last then .close else .again)
  | .stop => idle

end Worker

inductive Mark where
  | begun (n : Nat) (op : Op) (time : Instant)
  /-- The store has done it, while `queued` was on its way through the batch writer. -/
  | landed (n : Nat) (op : Op) (queued : List KeyValue)
  | failed (n : Nat)
  | accepted (n : Nat) (item : KeyValue)
  | ended (n : Nat) (op : Op) (r : Except Error Answer)
  | dropped (n : Nat)
  | stopping
  | flushed (window : List KeyValue)
  | lost (window : List KeyValue)

namespace Front

inductive Stage where
  | asked (p : Pending)
  | placing (item : KeyValue) (p : Pending)
  | answered (p : Pending) (r : Except Error Answer)

structure Call where
  number : Nat
  op : Op
  began : Instant
  stage : Stage

def Stage.leave (n : Nat) (channel : Channel) : Stage → Channel
  | placing _ _ => (channel.leave n).1
  | _ => channel

end Front

open Front in
structure Front where
  config : CacheConfig
  now : Instant
  memory : Memory
  shelf : Shelf
  channel : Channel
  worker : Worker
  stopping : Bool
  calls : List Call
  total : Nat

namespace Front

def start (config : CacheConfig) (shelf : Shelf) : Front where
  config := config
  now := 0
  memory := .empty
  shelf := shelf
  channel := .ofCapacity config.capacity
  worker := if config.batch then .idle else .gone
  stopping := false
  calls := []
  total := 0

/-- Items that are accepted and not in the store. -/
def backlog (s : Front) : List KeyValue := s.worker.window ++ s.channel.queue

inductive Enters (channel : Channel) (n : Nat) : Begun → Channel → Stage → List Mark → Prop where
  | served (a : Answer) : Enters channel n (.served a) channel (.answered .pass (.ok a)) []
  | asks (p : Pending) : Enters channel n (.ask p) channel (.asked p) []
  | accepted (item : KeyValue) (p : Pending) {channel'} (given : channel.reserve n = (channel', .granted)) :
      Enters channel n (.queue item p) (channel'.push item) (.answered p (.ok .done)) [.accepted n item]
  | waits (item : KeyValue) (p : Pending) {channel'} (full : channel.reserve n = (channel', .wait)) :
      Enters channel n (.queue item p) channel' (.placing item p) []
  | refused (item : KeyValue) (p : Pending) {channel'} (closed : channel.reserve n = (channel', .refused)) :
      Enters channel n (.queue item p) channel' (.answered p (.error writerStopped)) []

inductive Moves (shelf : Shelf) (channel : Channel) (queued : List KeyValue) (n : Nat) (op : Op) :
    Stage → List Mark → Shelf → Channel → Stage → Prop where
  | lands (p : Pending) : Moves shelf channel queued n op (.asked p) [.landed n op queued] (shelf.apply op) channel
      (.answered p (shelf.answer op))
  /-- Only a missing key is answered as such. -/
  | fails (p : Pending) (e : Error) (other : e.isNotFound = false) :
      Moves shelf channel queued n op (.asked p) [.failed n] shelf channel (.answered p (.error e))
  | accepted (item : KeyValue) (p : Pending) {channel'} (given : channel.claim n = (channel', .granted)) :
      Moves shelf channel queued n op (.placing item p) [.accepted n item] shelf (channel'.push item)
        (.answered p (.ok .done))
  | refused (item : KeyValue) (p : Pending) {channel'} (closed : channel.claim n = (channel', .refused)) :
      Moves shelf channel queued n op (.placing item p) [] shelf channel' (.answered p (.error writerStopped))

inductive Works (config : CacheConfig) (now : Instant) (stopping : Bool) (channel : Channel) (shelf : Shelf) :
    Worker → List Mark → Worker → Channel → Shelf → Prop where
  | opens {item channel' woken} (goesOn : stopping = false) (found : channel.receive = some (item, channel', woken)) :
      Works config now stopping channel shelf .idle [] (.gathering [item] (now + config.buffer)) channel' shelf
  | takes (window : List KeyValue) (due : Instant) {item channel' woken}
      (found : channel.receive = some (item, channel', woken)) :
      Works config now stopping channel shelf (.gathering window due) [] (.gathering (window ++ [item]) due) channel'
        shelf
  | due (window : List KeyValue) (due : Instant) (passed : due ≤ now) :
      Works config now stopping channel shelf (.gathering window due) [] (.flushing window .again) channel shelf
  | halts (window : List KeyValue) (due : Instant) (stops : stopping = true) :
      Works config now stopping channel shelf (.gathering window due) [] (.flushing window .close) channel shelf
  | writes (window : List KeyValue) (after : AfterFlush) :
      Works config now stopping channel shelf (.flushing window after) [.flushed window] (.resting after) channel
        (shelf.apply (.batchSet (dedupe window)))
  | loses (window : List KeyValue) (after : AfterFlush) :
      Works config now stopping channel shelf (.flushing window after) [.lost window] (.resting after) channel shelf
  | breaks (window : List KeyValue) (after : AfterFlush) :
      Works config now stopping channel shelf (.flushing window after) [.lost window] .gone channel.close.1 shelf
  | goesOn : Works config now stopping channel shelf (.resting .again) [] .idle channel shelf
  | closes {worker channel' left} (last : worker = .resting .close ∨ (worker = .idle ∧ stopping = true))
      (taken : channel.close.1.drain = (channel', left)) :
      Works config now stopping channel shelf worker [] (if left.isEmpty then .gone else .flushing left .stop) channel'
        shelf
  | ends : Works config now stopping channel shelf (.resting .stop) [] .gone channel shelf

inductive Step (s : Front) : List Mark → Front → Prop where
  | enter (op : Op) {memory begun channel stage marks} (begins : s.memory.begin s.config op s.now = (memory, begun))
      (enters : Enters s.channel s.total begun channel stage marks) :
      Step s (.begun s.total op s.now :: marks)
        { s with memory, channel, calls := s.calls ++ [⟨s.total, op, s.now, stage⟩], total := s.total + 1 }
  | move {before after c marks shelf channel stage} (stands : s.calls = before ++ c :: after)
      (moves : Moves s.shelf s.channel s.backlog c.number c.op c.stage marks shelf channel stage) :
      Step s marks { s with shelf, channel, calls := before ++ { c with stage } :: after }
  | answer {before after c p r memory r'} (stands : s.calls = before ++ c :: after) (answered : c.stage = .answered p r)
      (finished : s.memory.finish s.config p r s.now = (memory, r')) :
      Step s [.ended c.number c.op r'] { s with memory, calls := before ++ after }
  | drop {before after c} (stands : s.calls = before ++ c :: after) :
      Step s [.dropped c.number] { s with channel := c.stage.leave c.number s.channel, calls := before ++ after }
  | pass (now : Instant) (later : s.now ≤ now) : Step s [] { s with now }
  | sweep : Step s [] { s with memory := (s.memory.purge s.now).1 }
  | stop : Step s [.stopping] { s with stopping := true }
  | work {marks worker channel shelf}
      (works : Works s.config s.now s.stopping s.channel s.shelf s.worker marks worker channel shelf) :
      Step s marks { s with worker, channel, shelf }

abbrev Run (init : Front) : List Mark → Front → Prop := Runs Step init

/-- The store may also fail with any error, and be in any state after it. -/
inductive Erring (s : Front) : List Mark → Front → Prop where
  | step {ms s'} (step : Step s ms s') : Erring s ms s'
  | fails {before after c p} (e : Error) (shelf : Shelf) (stands : s.calls = before ++ c :: after)
      (asked : c.stage = .asked p) :
      Erring s [.failed c.number]
        { s with shelf, calls := before ++ { c with stage := .answered p (.error e) } :: after }

/-! ### What a call has in common with the operation it stands for -/

/-- What an operation may be left to do with its answer. -/
inductive Matches : Op → Pending → Prop where
  | served (op : Op) (reads : op.written = []) : Matches op .pass
  | get (key : String) (seen : Nat) : Matches (.get key) (.read key seen)
  | set (key : String) (value : Json) (version : Nat) : Matches (.set key value) (.write key version)
  | delete (key : String) : Matches (.delete key) .deletion
  | batchSet (items : List KeyValue) : Matches (.batchSet items) .pass

theorem Matches.read {op : Op} {key : String} {seen : Nat} (matched : Matches op (.read key seen)) : op = .get key := by
  cases matched
  rfl

theorem Matches.write {op : Op} {key : String} {version : Nat} (matched : Matches op (.write key version)) :
    ∃ value, op = .set key value := by
  cases matched
  exact ⟨_, rfl⟩

theorem Matches.deletion {op : Op} (matched : Matches op .deletion) : ∃ key, op = .delete key := by
  cases matched
  exact ⟨_, rfl⟩

def Stage.pending : Stage → Pending
  | asked p | placing _ p | answered p _ => p

theorem Stage.leaveKeeps (n : Nat) (channel : Channel) (stage : Stage) :
    (stage.leave n channel).queue = channel.queue ∧ (stage.leave n channel).closed = channel.closed := by
  cases stage with
  | placing => exact Channel.leaveKeeps
  | asked | answered => exact ⟨rfl, rfl⟩

end Front

def Begun.pending : Begun → Pending
  | served _ => .pass
  | ask p | queue _ p => p

/-- The write that was begun, or the latest that was seen. -/
def Pending.stamp : Pending → Nat
  | read _ seen => seen
  | write _ version => version
  | pass | deletion => 0

namespace Front

structure Call.Fits (writes : Nat) (c : Call) : Prop where
  matched : Matches c.op c.stage.pending
  stamp : c.stage.pending.stamp ≤ writes
  placed : ∀ item p, c.stage = .placing item p → c.op = .set item.key item.value

theorem beginMatches {m memory : Memory} {config : CacheConfig} {op : Op} {now : Instant} {begun : Begun}
    (begins : m.begin config op now = (memory, begun)) :
    Matches op begun.pending ∧ begun.pending.stamp ≤ memory.writes := by
  cases op with
  | get key =>
    rw [Memory.begin_get] at begins
    split at begins <;> cases begins
    · exact ⟨.served _ rfl, Nat.zero_le _⟩
    · exact ⟨.get _ _, Nat.le_refl _⟩
  | has key =>
    rw [Memory.begin_has] at begins
    split at begins <;> cases begins <;> exact ⟨.served _ rfl, Nat.zero_le _⟩
  | set key value =>
    simp only [Memory.begin, Prod.mk.injEq] at begins
    obtain ⟨rfl, rfl⟩ := begins
    split <;> exact ⟨.set _ _ _, Nat.le_refl _⟩
  | delete key =>
    cases begins
    exact ⟨.delete _, Nat.zero_le _⟩
  | batchSet items =>
    cases begins
    exact ⟨.batchSet _, Nat.zero_le _⟩

theorem queuedItem {m memory : Memory} {config : CacheConfig} {op : Op} {now : Instant} {item : KeyValue} {p : Pending}
    (begins : m.begin config op now = (memory, .queue item p)) : op = .set item.key item.value := by
  cases op with
  | set key value =>
    simp only [Memory.begin, Prod.mk.injEq] at begins
    obtain ⟨-, kept⟩ := begins
    split at kept <;> cases kept
    rfl
  | get key =>
    rw [Memory.begin_get] at begins
    split at begins <;> cases begins
  | has key =>
    rw [Memory.begin_has] at begins
    split at begins <;> cases begins
  | delete | batchSet => cases begins

theorem enterFits {m memory : Memory} {config : CacheConfig} {op : Op} {now began : Instant} {begun : Begun}
    {channel channel' : Channel} {n : Nat} {stage : Stage} {marks : List Mark}
    (begins : m.begin config op now = (memory, begun)) (enters : Enters channel n begun channel' stage marks) :
    Call.Fits memory.writes ⟨n, op, began, stage⟩ := by
  obtain ⟨matched, stamp⟩ := beginMatches begins
  have pending : stage.pending = begun.pending := by cases enters <;> rfl
  rw [← pending] at matched stamp
  refine ⟨matched, stamp, ?_⟩
  intro item p placing
  cases enters with
  | waits =>
    cases placing
    exact queuedItem begins
  | served | asks | accepted | refused => cases placing

theorem movePending {shelf shelf' : Shelf} {channel channel' : Channel} {queued : List KeyValue} {marks : List Mark}
    {n : Nat} {op : Op} {was stage : Stage} (moves : Moves shelf channel queued n op was marks shelf' channel' stage) :
    stage.pending = was.pending := by
  cases moves <;> rfl

theorem moveWaits {shelf shelf' : Shelf} {channel channel' : Channel} {queued : List KeyValue} {marks : List Mark}
    {n : Nat} {op : Op} {was stage : Stage} (moves : Moves shelf channel queued n op was marks shelf' channel' stage)
    (p : Pending) (r : Except Error Answer) : was ≠ .answered p r := by
  rintro rfl
  cases moves

theorem moveAnswers {shelf shelf' : Shelf} {channel channel' : Channel} {queued : List KeyValue} {marks : List Mark}
    {n : Nat} {op : Op} {was stage : Stage} (moves : Moves shelf channel queued n op was marks shelf' channel' stage)
    (item : KeyValue) (p : Pending) : stage ≠ .placing item p := by
  rintro rfl
  cases moves

theorem moveSilent {shelf shelf' : Shelf} {channel channel' : Channel} {queued : List KeyValue} {marks : List Mark}
    {n : Nat} {op : Op} {was stage : Stage} (moves : Moves shelf channel queued n op was marks shelf' channel' stage)
    (j : Nat) (op' : Op) (time : Instant) : Mark.begun j op' time ∉ marks := by
  cases moves <;> simp

theorem moveFits {shelf shelf' : Shelf} {channel channel' : Channel} {queued : List KeyValue} {marks : List Mark}
    {c : Call} {stage : Stage} {writes : Nat}
    (moves : Moves shelf channel queued c.number c.op c.stage marks shelf' channel' stage) (fits : c.Fits writes) :
    Call.Fits writes { c with stage } := by
  have pending := movePending moves
  refine ⟨pending ▸ fits.matched, pending ▸ fits.stamp, ?_⟩
  intro item p placing
  exact absurd placing (moveAnswers moves item p)

theorem Call.Fits.mono {c : Call} {writes writes' : Nat} (fits : c.Fits writes) (le : writes ≤ writes') :
    c.Fits writes' :=
  ⟨fits.matched, Nat.le_trans fits.stamp le, fits.placed⟩

structure Sound (config : CacheConfig) (s : Front) : Prop where
  settings : s.config = config
  alone : config.batch = false → s.worker = .gone
  numbers : ∀ c ∈ s.calls, c.number < s.total
  times : ∀ c ∈ s.calls, c.began ≤ s.now
  fits : ∀ c ∈ s.calls, c.Fits s.memory.writes

theorem workSilent {config : CacheConfig} {now : Instant} {stopping : Bool} {channel channel' : Channel}
    {shelf shelf' : Shelf} {marks : List Mark} {worker worker' : Worker}
    (works : Works config now stopping channel shelf worker marks worker' channel' shelf') (n : Nat) (op : Op)
    (time : Instant) : Mark.begun n op time ∉ marks := by
  cases works <;> simp

theorem workAlone {config : CacheConfig} {now : Instant} {stopping : Bool} {channel channel' : Channel}
    {shelf shelf' : Shelf} {marks : List Mark} {worker : Worker}
    (works : Works config now stopping channel shelf .gone marks worker channel' shelf') : False := by
  cases works with
  | closes last taken =>
    rcases last with h | ⟨h, -⟩ <;> cases h

theorem stepSound {config : CacheConfig} {s s' : Front} {marks : List Mark} (step : Step s marks s')
    (sound : Sound config s) : Sound config s' := by
  obtain ⟨same, alone, numbers, times, fits⟩ := sound
  cases step with
  | enter op begins enters =>
    have numbers' : ∀ c ∈ s.calls, c.number < s.total + 1 := fun c hc => Nat.lt_succ_of_lt (numbers c hc)
    have fits' := fun c hc => (fits c hc).mono (Memory.beginWrites begins)
    refine ⟨same, alone, ?_, ?_, ?_⟩
    · exact List.forall_mem_append.mpr ⟨numbers', List.forall_mem_singleton.mpr (Nat.lt_succ_self _)⟩
    · exact List.forall_mem_append.mpr ⟨times, List.forall_mem_singleton.mpr (Nat.le_refl _)⟩
    · exact List.forall_mem_append.mpr ⟨fits', List.forall_mem_singleton.mpr (enterFits begins enters)⟩
  | move stands moves =>
    rw [stands, List.forall_mem_append, List.forall_mem_cons] at numbers times fits
    refine ⟨same, alone, ?_, ?_, ?_⟩
    · exact List.forall_mem_append.mpr ⟨numbers.1, List.forall_mem_cons.mpr numbers.2⟩
    · exact List.forall_mem_append.mpr ⟨times.1, List.forall_mem_cons.mpr times.2⟩
    · exact List.forall_mem_append.mpr ⟨fits.1, List.forall_mem_cons.mpr ⟨moveFits moves fits.2.1, fits.2.2⟩⟩
  | answer stands answered finished =>
    rw [stands, List.forall_mem_append, List.forall_mem_cons] at numbers times fits
    rw [← Memory.finishWrites finished] at fits
    exact ⟨same, alone, List.forall_mem_append.mpr ⟨numbers.1, numbers.2.2⟩,
      List.forall_mem_append.mpr ⟨times.1, times.2.2⟩, List.forall_mem_append.mpr ⟨fits.1, fits.2.2⟩⟩
  | drop stands =>
    rw [stands, List.forall_mem_append, List.forall_mem_cons] at numbers times fits
    exact ⟨same, alone, List.forall_mem_append.mpr ⟨numbers.1, numbers.2.2⟩,
      List.forall_mem_append.mpr ⟨times.1, times.2.2⟩, List.forall_mem_append.mpr ⟨fits.1, fits.2.2⟩⟩
  | pass now later => exact ⟨same, alone, numbers, fun c hc => Nat.le_trans (times c hc) later, fits⟩
  | sweep | stop => exact ⟨same, alone, numbers, times, fits⟩
  | work works =>
    refine ⟨same, fun off => ?_, numbers, times, fits⟩
    rw [alone off] at works
    exact absurd works workAlone

theorem runSound {config : CacheConfig} {shelf : Shelf} {ms : List Mark} {s : Front}
    (run : Run (start config shelf) ms s) : Sound config s := by
  induction run with
  | nil => exact ⟨rfl, fun off => by simp [start, off], by simp [start], by simp [start], by simp [start]⟩
  | next earlier last ih => exact stepSound last ih

theorem erringSound {config : CacheConfig} {s s' : Front} {marks : List Mark} (step : Erring s marks s')
    (sound : Sound config s) : Sound config s' := by
  cases step with
  | step step => exact stepSound step sound
  | @fails before after c p e shelf stands asked =>
    obtain ⟨same, alone, numbers, times, fits⟩ := sound
    rw [stands, List.forall_mem_append, List.forall_mem_cons] at numbers times fits
    obtain ⟨fitsBefore, ⟨matched, stamp, -⟩, fitsAfter⟩ := fits
    rw [asked] at matched stamp
    refine ⟨same, alone, ?_, ?_, ?_⟩
    · exact List.forall_mem_append.mpr ⟨numbers.1, List.forall_mem_cons.mpr numbers.2⟩
    · exact List.forall_mem_append.mpr ⟨times.1, List.forall_mem_cons.mpr times.2⟩
    · exact List.forall_mem_append.mpr ⟨fitsBefore, List.forall_mem_cons.mpr ⟨⟨matched, stamp, nofun⟩, fitsAfter⟩⟩

theorem runErringSound {config : CacheConfig} {shelf : Shelf} {ms : List Mark} {s : Front}
    (run : Runs Erring (start config shelf) ms s) : Sound config s := by
  induction run with
  | nil => exact runSound .nil
  | next earlier last ih => exact erringSound last ih

/-! ### The batch writer as it runs -/

theorem gatherRuns {init s : Front} {window items : List KeyValue} {due : Instant} {channel : Channel}
    {woken : List Nat} (fuel : Nat) (run : Run init [] s) (stands : s.worker = .gathering window due)
    (gathered : s.channel.gather fuel = (channel, items, woken)) :
    Run init [] { s with channel, worker := .gathering (window ++ items) due } := by
  induction fuel generalizing s window items woken with
  | zero =>
    cases gathered
    simpa [← stands] using run
  | succ fuel ih =>
    rw [Channel.gather] at gathered
    split at gathered
    · cases gathered
      simpa [← stands] using run
    · rename_i item next first found
      simp only [Prod.mk.injEq] at gathered
      obtain ⟨rfl, rfl, -⟩ := gathered
      have taken : Run init [] { s with channel := next, worker := .gathering (window ++ [item]) due } :=
        .next run (.work (stands ▸ .takes window due found))
      simpa using ih taken rfl rfl

/-- A turn of the batch writer is a run of its single steps. -/
theorem turnRuns {init s : Front} {w : Writer} {ticket : Nat} {orphaned : Bool} {channel : Channel} {turn : Turn}
    {woken : List Nat} (run : Run init [] s) (stands : s.worker = .ofWriter w)
    (told : orphaned = true → s.stopping = true)
    (turns : w.turn s.channel s.now s.config.buffer ticket s.stopping orphaned = (channel, turn, woken)) :
    Run init [] { s with channel, worker := .ofTurn turn } := by
  have kept : ¬ s.stopping = true → orphaned = false := by
    intro goesOn
    simpa using fun h => goesOn (told h)
  cases w with
  | idle =>
    have idle : s.worker = .idle := stands
    have still : Run init [] { s with worker := .idle } := by
      rw [← idle]
      exact run
    simp only [Writer.turn] at turns
    split at turns
    · cases turns
      exact still
    · rename_i goesOn
      split at turns
      · rw [kept goesOn] at turns
        cases turns
        exact still
      · rename_i item next first found
        have opened : Run init []
            { s with channel := next, worker := .gathering [item] (s.now + s.config.buffer) } :=
          .next run (.work (idle ▸ .opens (by simpa using goesOn) found))
        split at turns
        · rename_i passed
          cases turns
          exact .next opened (.work (.due _ _ passed))
        · rw [kept goesOn] at turns
          cases turns
          exact gatherRuns _ opened rfl rfl
  | window items due ticket =>
    have gathering : s.worker = .gathering items due := stands
    simp only [Writer.turn] at turns
    split at turns
    · rename_i passed
      cases turns
      exact .next run (.work (gathering ▸ .due items due passed))
    · split at turns
      · rename_i stops
        cases turns
        exact .next run (.work (gathering ▸ .halts items due stops))
      · rename_i goesOn
        rw [kept goesOn] at turns
        cases turns
        exact gatherRuns _ run gathering rfl

end Front
end Switchyard.State

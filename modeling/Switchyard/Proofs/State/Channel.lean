import Switchyard.State.Batch
/-!
What the operations of the channel leave of its items: senders who ask, wait or leave take nothing away and put nothing
in, a sender with a place puts its item last, and the receiver takes the first.
-/
namespace Switchyard.State.Channel

variable {c c' : Channel} {n : Nat} {item : KeyValue} {admission : Admission}

theorem vacateKeeps : c.vacate.1.queue = c.queue ∧ c.vacate.1.closed = c.closed := by
  unfold vacate
  split <;> exact ⟨rfl, rfl⟩

theorem reserveKeeps (asked : c.reserve n = (c', admission)) : c'.queue = c.queue ∧ c'.closed = c.closed := by
  unfold reserve at asked
  split at asked
  · cases asked
    exact ⟨rfl, rfl⟩
  · split at asked <;> cases asked <;> exact ⟨rfl, rfl⟩

theorem reserveRefused (asked : c.reserve n = (c', .refused)) : c.closed = true := by
  unfold reserve at asked
  split at asked
  · assumption
  · split at asked <;> cases asked

theorem claimKeeps (asked : c.claim n = (c', admission)) : c'.queue = c.queue ∧ c'.closed = c.closed := by
  unfold claim at asked
  split at asked
  · cases asked
    exact ⟨rfl, rfl⟩
  · split at asked <;> cases asked <;> exact ⟨rfl, rfl⟩

theorem claimRefused (asked : c.claim n = (c', .refused)) : c.closed = true := by
  unfold claim at asked
  split at asked
  · assumption
  · split at asked <;> cases asked

theorem reserveGranted (asked : c.reserve n = (c', .granted)) : c.closed = false := by
  unfold reserve at asked
  split at asked
  · cases asked
  · rename_i opened
    simpa using opened

theorem claimGranted (asked : c.claim n = (c', .granted)) : c.closed = false := by
  unfold claim at asked
  split at asked
  · cases asked
  · rename_i opened
    simpa using opened

theorem leaveKeeps : (c.leave n).1.queue = c.queue ∧ (c.leave n).1.closed = c.closed := by
  unfold leave
  split
  · exact vacateKeeps
  · exact ⟨rfl, rfl⟩

theorem receiveFirst {woken : Option Nat} (found : c.receive = some (item, c', woken)) :
    c.queue = item :: c'.queue ∧ c'.closed = c.closed := by
  unfold receive at found
  split at found
  · cases found
  · rename_i first rest queue
    have keeps := vacateKeeps (c := { c with queue := rest })
    simp only [Option.some.injEq, Prod.mk.injEq] at found
    obtain ⟨rfl, rfl, -⟩ := found
    exact ⟨by rw [queue, keeps.1], keeps.2⟩

theorem drainClosed {left : List KeyValue} (taken : c.close.1.drain = (c', left)) :
    left = c.queue ∧ c'.queue = [] ∧ c'.closed = true := by
  cases taken
  exact ⟨rfl, rfl, rfl⟩

end Switchyard.State.Channel

import Switchyard.Rehearsal.Setup
/-!
A rehearsal: the components are built, the steps are carried out one after another, and after each the
background work goes on until it has come to rest.
-/
namespace Switchyard.Rehearsal

/-- Moves that the machine makes for one step at most. -/
def patience : Nat := Nat.pow 10 12

/-- Endings by time, and by name at one time. -/
def Ending.le (a b : Ending) : Bool := a.time < b.time || (a.time = b.time && a.name ≤ b.name)

def scene (reply : Reply) : Act Scene :=
  modifyGet fun w =>
    (⟨w.now, reply, w.reports, w.notes, w.logs, w.endings.mergeSort Ending.le⟩,
     { w with reports := [], notes := [], logs := [], endings := [] })

def carryOut (s : Step) : Act Scene := do
  Act.setTask World.foreground (.fresh .foreground (.step none s))
  Act.wake World.foreground
  modify fun w => { w with rested := true }
  Machine.run patience
  scene (((← get).outcome? World.foreground).elim .null Reply.ofEnded)

def opening (setup : Setup) : Act Scene := do
  setup.build
  Machine.run patience
  scene (.text "setup")

/-- The scenes of a rehearsal, the first for the setup. An application without a store cannot be built. -/
def rehearse (filter : Log.Filter) (setup : Setup) (steps : List Step) : Except Error (List Scene) :=
  if setup.app.any fun a => !a.hasStore then .error App.noStore
  else
    let all : Act (List Scene) := do
      let first ← opening setup
      let others ← steps.mapM carryOut
      return first :: others
    .ok (all.run (World.empty filter)).1

end Switchyard.Rehearsal

import ServerDiscovery.Simulation.Station

/-! Deliveries that wait for a socket, in the order in which they are due; of those due together the
one that was sent first comes first. -/

namespace ServerDiscovery.Simulation

/-- The deliveries of one time: those in front, then those behind, the last one first. -/
structure Slot where
  due : Time
  front : List Delivery
  back : List Delivery

def Slot.single (d : Delivery) : Slot := ⟨d.due, [d], []⟩

/-- Slots with ascending times. -/
structure Inbox where
  slots : List Slot

namespace Inbox

def empty : Inbox := ⟨[]⟩

def insertSlot (d : Delivery) : List Slot → List Slot
  | [] => [.single d]
  | s :: rest =>
    if d.due < s.due then .single d :: s :: rest
    else if d.due = s.due then { s with back := d :: s.back } :: rest
    else s :: insertSlot d rest

def insert (b : Inbox) (d : Delivery) : Inbox := ⟨insertSlot d b.slots⟩

/-- Takes the first delivery out of the first slot that has one. -/
def popSlot? : List Slot → Option (Delivery × List Slot)
  | [] => none
  | s :: rest =>
    match s.front with
    | d :: front => some (d, { s with front } :: rest)
    | [] => match s.back.reverse with
      | d :: front => some (d, ⟨s.due, front, []⟩ :: rest)
      | [] => popSlot? rest

def pop? (b : Inbox) : Option (Delivery × Inbox) :=
  (popSlot? b.slots).map fun (d, slots) => (d, ⟨slots⟩)

end Inbox
end ServerDiscovery.Simulation

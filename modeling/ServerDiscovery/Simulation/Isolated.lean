import ServerDiscovery.Simulation.Expedition

/-! A host without a network: whatever it sends, even to itself, is heard by nobody. -/

namespace ServerDiscovery.Simulation

def World.isolated : World := ⟨0, [], 0, none⟩

def unreachableMessage : String := "Network is unreachable (os error 101)"

end ServerDiscovery.Simulation

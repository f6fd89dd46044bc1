import ServerDiscovery.Address.Socket
import ServerDiscovery.Token.Basic

/-! How long a client waits, and how often it asks again. -/

namespace ServerDiscovery.Client

/-- The time given to one inquiry. Its first window is never longer than all of it. -/
structure Pacing where
  budget : Time
  firstWindow : Time
  writeBudget : Time
  firstWindow_le : firstWindow ≤ budget

/-- A budget below the first window is raised to it. -/
def Pacing.of (budget firstWindow writeBudget : Time) : Pacing :=
  ⟨max budget firstWindow, firstWindow, writeBudget, Nat.le_max_right ..⟩

def Pacing.uniform (budget firstWindow : Time) : Pacing :=
  .of budget firstWindow (max budget firstWindow)

structure Settings where
  readTimeout : Time := 16000
  writeTimeout : Time := 16000
  tokenLifetime : Time := Token.defaultLifetime
  minTimeout : Time := 35
  bind : Option SocketAddress := none

namespace Settings

def withTimeout (s : Settings) (timeout : Time) : Settings :=
  { s with readTimeout := timeout, writeTimeout := timeout }

def pacing (s : Settings) : Pacing :=
  .of s.readTimeout s.minTimeout s.writeTimeout

end Settings
end ServerDiscovery.Client

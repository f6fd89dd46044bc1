/-! Instants and spans of the one clock that tokens, ledgers and clients read. -/

namespace ServerDiscovery

/-- Whole milliseconds: an instant counted from the start of the clock, or a span. -/
abbrev Time := Nat

end ServerDiscovery

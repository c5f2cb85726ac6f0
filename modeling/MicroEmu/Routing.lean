/-!
# Agents

The bridge serves up to four agents.  The first six task positions of a
controller, the LCD slots, are partitioned among them.
-/

namespace MicroEmu
namespace Routing

/-- Number of LCD status slots managed by `v.oai.thstatus`. -/
def lcdSlots : Nat := 6

/-- Identifies which agent a session represents. -/
inductive AgentId where
  | codex
  | zCode
  | hermes
  | claude
  deriving DecidableEq, Repr, Inhabited

def AgentId.asStr : AgentId → String
  | .codex => "codex"
  | .zCode => "zcode"
  | .hermes => "hermes"
  | .claude => "claude"

end Routing
end MicroEmu

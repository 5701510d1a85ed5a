import ApiIntake.Database.Node

/-!
# The tables of a new database

Three statements make the tables and an index, each unless it is there already, so that
they can be run at every start.
-/

namespace ApiIntake.Database

/-- The statements that make the tables, with their texts. -/
def migration : List (Statement × String) :=
  [(.createConfigs,
    "create table if not exists mcp_configs (\n" ++
    "  name text primary key,\n" ++
    "  tenant text not null,\n" ++
    "  prefix text not null,\n" ++
    "  config jsonb not null,\n" ++
    "  created_at timestamptz not null default now(),\n" ++
    "  constraint mcp_configs_name_nonblank check (length(btrim(name)) > 0)\n" ++
    ")"),
   (.createEvents,
    "create table if not exists mcp_config_events (\n" ++
    "  id bigserial primary key,\n" ++
    "  name text not null references mcp_configs (name),\n" ++
    "  config_hash text not null,\n" ++
    "  created_at timestamptz not null default now()\n" ++
    ")"),
   (.createIndex,
    "create index if not exists mcp_config_events_name_idx on mcp_config_events (name, id)")]

/-- Why the database cannot be made ready. -/
inductive SetupError where
  /-- No connection can be made. -/
  | connect (e : AccessError)
  /-- A statement fails. -/
  | statement (text : String) (e : AccessError)
deriving DecidableEq, Repr

/-- The text of an error with its causes behind it. -/
def SetupError.message : SetupError → String
  | .connect e => "connect to Postgres: " ++ e.chain
  | .statement text e => "execute migration statement: " ++ text ++ ": " ++ e.chain

namespace Node

/-- Runs statements one after the other up to the first that fails. -/
def runAll : List (Statement × String) → StateM Node (Except SetupError Unit)
  | [] => return .ok ()
  | (statement, text) :: rest => do
    match ← query statement with
    | .error e => return .error (.statement text e)
    | .ok _ => runAll rest

/-- Makes the tables. -/
def migrate : StateM Node (Except SetupError Unit) := runAll migration

/-- Connects to the database and makes the tables. -/
def connect : StateM Node (Except SetupError Unit) := do
  match (← get).server.refusal with
  | some e => return .error (.connect (.database e))
  | none => migrate

end Node

end ApiIntake.Database

import Newsfeed.Config
import Newsfeed.Toml.Document

/-!
The configuration file. It is a TOML document with the tables `database`, `engine` and `defaults`;
what it leaves out is as in the standard configuration, and what it does not know it ignores. A list
in place of a table holds the values of its keys in order.
-/

namespace Newsfeed

open Newsfeed.Text

namespace Config

/-- Reads a part of a table, or leaves it at its standard where there is none. -/
def partOr {α : Type} (read : Toml.Value → Option α) (standard : α) (key : String) (place : Nat)
    (table : Toml.Value) : Option α :=
  match table.part? key place with
  | some v => read v
  | none => some standard

def readInt : Toml.Value → Option Int
  | .int n => if isInt64 n then some n else none
  | _ => none

/-- Numbers without a sign fit 64 bits. -/
def readNat : Toml.Value → Option Nat
  | .int n => if 0 ≤ n ∧ n < UInt64.size then some n.toNat else none
  | _ => none

def readBool : Toml.Value → Option Bool
  | .bool b => some b
  | _ => none

def readText : Toml.Value → Option String
  | .text s => some s
  | _ => none

def readLimits (t : Toml.Value) : Option Limits := do
  let s := Limits.standard
  if !t.isComposite then none
  let defaultLimit ← partOr readInt s.defaultLimit "default_limit" 0 t
  let maxLimit ← partOr readInt s.maxLimit "max_limit" 1 t
  let timeout ← partOr readNat s.timeoutSeconds "query_timeout_secs" 2 t
  let guard ← partOr readInt s.guardMinutes "first_id_window_minutes" 3 t
  let recent ← partOr readInt s.recentlyReadHours "recently_read_hours" 4 t
  let depth ← partOr readNat s.categoryDepth "max_category_depth" 5 t
  some ⟨defaultLimit, maxLimit, timeout, guard, recent, depth⟩

def readPreferences (t : Toml.Value) : Option Preferences := do
  let s := Preferences.standard
  if !t.isComposite then none
  let freshHours ← partOr readInt s.freshHours "fresh_article_max_age" 0 t
  let groupByFeed ← partOr readBool s.groupByFeed "vfeed_group_by_feed" 1 t
  let noDistinct ← partOr readBool s.noDistinct "headlines_no_distinct" 2 t
  let language ← partOr readText s.searchLanguage "default_search_language" 3 t
  let timezone ← partOr readText s.timezone "timezone" 4 t
  some ⟨freshHours, groupByFeed, noDistinct, language, timezone⟩

def readDatabase (t : Toml.Value) : Option (Option String) :=
  if t.isComposite then partOr (fun v => (readText v).map some) none "path" 0 t else none

/-- The configuration that a file holds, if it is a document whose entries have the right kinds. -/
def read? (s : String) : Option Config := do
  let document ← Toml.read? s
  let path ← partOr readDatabase none "database" 0 document
  let limits ← partOr readLimits .standard "engine" 1 document
  let defaults ← partOr readPreferences .standard "defaults" 2 document
  some ⟨path, limits, defaults⟩

/-- The file that is written where there is none. -/
def fileText : String := String.intercalate "\n" [
  "# Rivulet headline engine configuration",
  "",
  "[database]",
  "# Database file. Defaults to <data dir>/rivulet/rivulet.db",
  "# path = \"/var/lib/rivulet/rivulet.db\"",
  "",
  "[engine]",
  "# Page size used when a request asks for 0 rows",
  "default_limit = 30",
  "",
  "# Upper bound for a single page",
  "max_limit = 200",
  "",
  "# Requests running longer than this are cancelled",
  "query_timeout_secs = 10",
  "",
  "# Pagination check: only articles that arrived within this window can",
  "# invalidate a cached page cursor",
  "first_id_window_minutes = 60",
  "",
  "# Age window of the \"Recently read\" feed",
  "recently_read_hours = 24",
  "",
  "# Category trees deeper than this are cut off while counting",
  "max_category_depth = 64",
  "",
  "[defaults]",
  "# Per-user preferences stored in the database override these.",
  "",
  "# Hours an unread article counts as fresh",
  "fresh_article_max_age = 24",
  "",
  "# Group virtual feeds by feed title",
  "vfeed_group_by_feed = false",
  "",
  "# Skip SELECT DISTINCT on headline pages",
  "headlines_no_distinct = false",
  "",
  "# One of: simple, english, german, french, spanish, russian",
  "default_search_language = \"simple\"",
  "",
  "# IANA zone such as \"Europe/Berlin\", UTC, or a fixed offset such as \"+02:00\"",
  "timezone = \"UTC\"",
  ""]

end Config

end Newsfeed

import Newsfeed.Listing.Request
import Newsfeed.Time.Rfc3339
import Newsfeed.Wire.Datum

/-!
Requests as wire values. Fields that are left out have their defaults, unknown ones are passed
over, and only optional ones may be null. A record may also come as the list of its first fields.
What is written is read back as the same request.
-/

namespace Newsfeed.Wire

open Newsfeed.Text

/-- Reads values of one kind; `none` refuses. -/
abbrev Reader (α : Type) := Datum → Option α

def readBool : Reader Bool
  | .bool b => some b
  | _ => none

/-- Whole numbers fit 64 bits. -/
def readInt : Reader Int
  | .int n => if isInt64 n then some n else none
  | _ => none

def readText : Reader String
  | .text s => some s
  | _ => none

def readTime : Reader Time.Instant
  | .text s => Time.Instant.ofRfc3339? s
  | _ => none

def nullable {α : Type} (read : Reader α) : Reader (Option α)
  | .null => some none
  | v => (read v).map some

/-- A feed is a number or a text, which may spell a number. -/
def readAddress : Reader Address
  | .int n => if isInt64 n then some (.id n) else none
  | .text s => some (Address.read s)
  | _ => none

/-- Reads a part of a record; one that is left out has its default. -/
def partOr {α : Type} (read : Reader α) (fallback : α) (name : String) (place : Nat) (v : Datum) :
    Option α :=
  match v.part? name place with
  | some w => read w
  | none => some fallback

def readPage (v : Datum) : Option Page := do
  if !v.isTuple 3 then none
  let limit ← partOr readInt 0 "limit" 0 v
  let offset ← partOr readInt 0 "offset" 1 v
  let expected ← partOr (nullable readInt) none "expected_first_id" 2 v
  some ⟨limit, offset, expected⟩

def readRequest (v : Datum) : Option Request := do
  if !v.isTuple 12 then none
  let feed ← (v.part? "feed" 0).bind readAddress
  let isCategory ← partOr readBool false "is_cat" 1 v
  let includeChildren ← partOr readBool false "include_children" 2 v
  let viewMode ← partOr (fun w => (readText w).map ViewMode.read) .allArticles "view_mode" 3 v
  let search ← partOr (nullable readText) none "search" 4 v
  let language ← partOr (nullable readText) none "search_language" 5 v
  let orderBy ← partOr readText "" "order_by" 6 v
  let page ← partOr readPage ⟨0, 0, none⟩ "page" 7 v
  let sinceId ← partOr (nullable readInt) none "since_id" 8 v
  let start ← partOr (nullable readTime) none "start_ts" 9 v
  let includeContent ← partOr readBool false "include_content" 10 v
  let skipGuard ← partOr readBool false "skip_first_id_check" 11 v
  some ⟨feed, isCategory, includeChildren, viewMode, search, language, orderBy, page, sinceId,
    start, includeContent, skipGuard⟩

def ofOption {α : Type} (write : α → Datum) : Option α → Datum
  | some a => write a
  | none => .null

def writeAddress : Address → Datum
  | .id n => .int n
  | .name s => .text s

def writePage (p : Page) : Datum :=
  .record
    [("limit", .int p.limit), ("offset", .int p.offset),
     ("expected_first_id", ofOption .int p.expectedFirst)]

def writeRequest (r : Request) : Datum :=
  .record
    [("feed", writeAddress r.feed),
     ("is_cat", .bool r.isCategory),
     ("include_children", .bool r.includeChildren),
     ("view_mode", .text r.viewMode.name),
     ("search", ofOption .text r.search),
     ("search_language", ofOption .text r.searchLanguage),
     ("order_by", .text r.orderBy),
     ("page", writePage r.page),
     ("since_id", ofOption .int r.sinceId),
     ("start_ts", ofOption (fun t => .text t.rfc3339) r.start),
     ("include_content", .bool r.includeContent),
     ("skip_first_id_check", .bool r.skipGuard)]

end Newsfeed.Wire

import Newsfeed.Proofs.Text.Decimal
import Newsfeed.Proofs.Text.Trimmed
import Newsfeed.Proofs.Time.Rfc3339
import Newsfeed.Wire.Request

/-!
Requests come back from the wire as they went out. A reader takes more than its writer gives, such
as numbers in quotes or times with an offset; what it makes of them is written so that it is read
as the same.
-/

namespace Newsfeed.Wire

open Newsfeed.Text

/-- Whatever is read is read again from what is written for it. -/
def Restores {α : Type} (read : Reader α) (write : α → Datum) : Prop :=
  ∀ ⦃v a⦄, read v = some a → read (write a) = some a

section Parts

variable {α : Type} {read : Reader α} {write : α → Datum}

theorem Restores.nullable (h : Restores read write) (hnull : ∀ a, write a ≠ .null) :
    Restores (nullable read) (ofOption write) := by
  have hread {v : Datum} (hv : v ≠ .null) : Wire.nullable read v = (read v).map some := by
    cases v with
    | null => exact absurd rfl hv
    | _ => rfl
  intro v a? hv
  cases a? with
  | none => rfl
  | some a =>
    have hsome : v ≠ .null := by
      rintro rfl
      cases hv
    rw [hread hsome, Option.map_eq_some_iff] at hv
    obtain ⟨_, hv, ⟨⟩⟩ := hv
    rw [ofOption, hread (hnull _), h hv, Option.map_some]

/-- A part that is left out is written as its default, which must be readable itself. -/
theorem Restores.part {fallback a : α} {name : String} {place : Nat} {v : Datum}
    (h : Restores read write) (hfallback : read (write fallback) = some fallback)
    (hpart : partOr read fallback name place v = some a) : read (write a) = some a := by
  unfold partOr at hpart
  split at hpart
  · exact h hpart
  · cases hpart
    exact hfallback

end Parts

theorem restores_text : Restores readText .text := fun _ _ _ => rfl

theorem restores_int : Restores readInt .int := by
  intro v n h
  cases v with
  | int m =>
    rw [readInt, Option.ite_none_right_eq_some, Option.some.injEq] at h
    obtain ⟨hfits, rfl⟩ := h
    rw [readInt, if_pos hfits]
  | _ => cases h

theorem restores_time : Restores readTime fun t => .text t.rfc3339 := by
  intro v t h
  cases v with
  | text s => exact (Time.Instant.exists_of_read h).read_rfc3339
  | _ => cases h

theorem viewMode_read_name (m : ViewMode) : ViewMode.read m.name = m := by
  cases m <;> rfl

theorem trimChars_trimChars (cs : List Char) : trimChars (trimChars cs) = trimChars cs := by
  obtain ⟨-, -, -, -, -, htrimmed⟩ := exists_blanks cs
  exact htrimmed.trimChars

/-- A name is left over where its text is no number, and it is none without the blanks either. -/
theorem restores_address : Restores readAddress writeAddress := by
  intro v a h
  cases v with
  | int n =>
    rw [readAddress, Option.ite_none_right_eq_some, Option.some.injEq] at h
    obtain ⟨hfits, rfl⟩ := h
    rw [writeAddress, readAddress, if_pos hfits]
  | text s =>
    obtain rfl : Address.read s = a := Option.some.inj h
    unfold Address.read
    split
    · rename_i n hn
      rw [writeAddress, readAddress, if_pos (readInt64_iff.mp hn).2]
    · rename_i hnone
      simp only [writeAddress, readAddress, Address.read, trim, String.toList_ofList,
        trimChars_trimChars, hnone]
  | _ => cases h

theorem restores_page : Restores readPage writePage := by
  intro v p h
  simp only [readPage, Option.bind_eq_bind, Option.bind_none, Option.ite_none_left_eq_some,
    Option.bind_eq_some_iff, Option.some.injEq] at h
  obtain ⟨-, limit, hlimit, offset, hoffset, expected, hexpected, rfl⟩ := h
  have hzero : readInt (.int 0) = some 0 := rfl
  have hlimit := restores_int.part hzero hlimit
  have hoffset := restores_int.part hzero hoffset
  have hexpected := (restores_int.nullable nofun).part rfl hexpected
  simp [readPage, writePage, partOr, Datum.isTuple, Datum.part?, List.lookup_cons, hlimit, hoffset,
    hexpected]

/-- Requests survive the wire: what a request was first read from may be written in many ways, but
from then on it is written and read as itself. -/
theorem requests_survive {v : Datum} {r : Request} (h : readRequest v = some r) :
    readRequest (writeRequest r) = some r := by
  simp only [readRequest, Option.bind_eq_bind, Option.bind_none, Option.ite_none_left_eq_some,
    Option.bind_eq_some_iff, Option.some.injEq] at h
  obtain ⟨-, feed, ⟨_, -, hfeed⟩, isCategory, -, includeChildren, -, viewMode, -, search, hsearch,
    language, hlanguage, orderBy, -, page, hpage, sinceId, hsince, start, hstart, includeContent, -,
    skipGuard, -, rfl⟩ := h
  have hfeed := restores_address hfeed
  have hsearch := (restores_text.nullable nofun).part rfl hsearch
  have hlanguage := (restores_text.nullable nofun).part rfl hlanguage
  have hpage := restores_page.part rfl hpage
  have hsince := (restores_int.nullable nofun).part rfl hsince
  have hstart := (restores_time.nullable nofun).part rfl hstart
  -- A flag, a mode or an order is read back whatever it is, so nothing is needed of their parts.
  simp [readRequest, writeRequest, partOr, Datum.isTuple, Datum.part?, List.lookup_cons, readBool,
    readText, viewMode_read_name, hfeed, hsearch, hlanguage, hpage, hsince, hstart]

/-- The feed is a number in quotes, the mode unknown, and the leap second an hour east of UTC. -/
theorem requests_survive_quoted :
    let v : Datum := .record
      [("feed", .text " -0003 "), ("view_mode", .text "newest"), ("since_id", .int minInt64),
        ("page", .list [.int maxInt64]),
        ("start_ts", .text "2017-01-01t00:59:60.1234567898 +01:00")]
    let r : Request :=
      { Request.plain (.id (-3)) with
        page := ⟨maxInt64, 0, none⟩, sinceId := some minInt64,
        start := some ⟨1483228799, 1123456789⟩ }
    readRequest v = some r ∧ readRequest (writeRequest r) = some r := by
  intro v r
  have hread : readRequest v = some r := by decide +kernel
  exact ⟨hread, requests_survive hread⟩

end Newsfeed.Wire

import ScriptGate.Guest.Host
import ScriptGate.Proofs.Bridge.RoundTrip
import ScriptGate.Proofs.Caller

/-!
# Headers of a request

A script that asks for a header by name gets its value, or a default, and one that asks for none
gets all of them in a table. Both are what the lines of the caller say, and so is the address that
its call comes from (`headers_of_lines`).
-/

namespace ScriptGate.Guest.Request

open Caller (SameName IsLower Collects LeadsTo)
open Lua (Value Heap Table)

variable (e : Surroundings) (w : World) (h : Heap) {asked : Value}

theorem call_headersGet (asked default : Value) : Host.call e w h .headersGet [asked, default] =
    Host.making w h (.ok (header e.call.caller h asked default)) := rfl

theorem call_headersGet_named {name : String} (named : keyText? asked = some name)
    (default : Value) : Host.call e w h .headersGet [asked, default] =
      ⟨.ok [(e.call.caller.header name).elim default .text], w, h⟩ := by
  rw [call_headersGet, header, named]
  rfl

/-- The table of all headers has an entry for each of them, and no other. -/
theorem call_headersGet_all (unnamed : keyText? asked = none) (default : Value) : ∃ t : Table,
    Host.call e w h .headersGet [asked, default] =
      ⟨.ok [.table h.tables.size], w, { h with tables := h.tables.push t }⟩ ∧
    t.Visits (e.call.caller.headerPairs.map fun (n, v) => (.text n, .text v)) := by
  let entries : List (Value × Value) :=
    e.call.caller.headerPairs.map fun (n, v) => (.text n, .text v)
  have nodup : (entries.map Prod.fst).Nodup := by
    refine List.pairwise_map.mpr (List.pairwise_map.mpr ?_)
    refine e.call.caller.pairwise_headerPairs.imp fun below same => ?_
    exact String.ne_of_lt below (Bridge.text_injective same)
  have present : ∀ entry ∈ entries, entry.2 ≠ .nil := by
    intro entry member
    obtain ⟨pair, -, rfl⟩ := List.mem_map.mp member
    exact Value.noConfusion
  refine ⟨.ofEntries entries, ?_, ?_⟩
  · rw [call_headersGet, header, unnamed]
    rfl
  · have visits := (Table.sound_ofEntries entries).visits_entries
    rwa [Table.entries_ofEntries nodup present] at visits

/-- What the lines of a caller come to. A header has a value where a line of its name shows one, in
whatever case both are spelled, and it is all of these in their order with commas and blanks between
them. The list has each header that has a value once, in small letters and in order. The call comes
from the first hop that is not blank among those of all lines, else from the host of the peer. A
script is told the same: by name it gets the value or its default, and without one a table in which
the text of each listed name has the text of its value and nothing else has any. -/
theorem headers_of_lines (c : Caller) :
    (∀ name value, c.header name = some value ↔ ∃ values, values ≠ [] ∧
      Collects name c.headers values ∧ value = ", ".intercalate values) ∧
    (∀ name, c.header name = none ↔
      ∀ line ∈ c.headers, SameName line.name name → ∀ value, ¬line.Shows value) ∧
    (∀ name other, SameName name other → c.header name = c.header other) ∧
    c.headerPairs.Pairwise (fun a b => a.1 < b.1) ∧
    (∀ name value, (name, value) ∈ c.headerPairs ↔ IsLower name ∧ c.header name = some value) ∧
    (∀ name value, c.header name = some value →
      ∃ low, SameName low name ∧ (low, value) ∈ c.headerPairs) ∧
    (∀ ip, c.initiator = ip ↔ ∃ values, Collects "x-forwarded-for" c.headers values ∧
      LeadsTo c.peer (values.flatMap (Text.split ',')) ip) ∧
    ∀ (e : Surroundings) (w : World) (h : Heap) (asked default : Value), e.call.caller = c →
      (∀ name, keyText? asked = some name → Host.call e w h .headersGet [asked, default] =
        ⟨.ok [(c.header name).elim default .text], w, h⟩) ∧
      (keyText? asked = none → ∃ t : Table, Host.call e w h .headersGet [asked, default] =
          ⟨.ok [.table h.tables.size], w, { h with tables := h.tables.push t }⟩ ∧
        ∀ key v, v ≠ .nil → (t.get key = v ↔ ∃ name value, IsLower name ∧
          c.header name = some value ∧ key = .text name ∧ v = .text value)) := by
  refine ⟨fun name value => Caller.header_eq_some_iff, fun name => Caller.header_eq_none_iff,
    fun name other => Caller.header_congr, c.pairwise_headerPairs,
    fun name value => Caller.mem_headerPairs, fun name value found => ?_,
    fun ip => Caller.initiator_eq_iff, ?_⟩
  · have same := Caller.sameName_lower name
    refine ⟨Caller.lower name, same, Caller.mem_headerPairs.mpr ⟨Caller.isLower_lower name, ?_⟩⟩
    rwa [Caller.header_congr same]
  · rintro e w h asked default rfl
    refine ⟨fun name named => call_headersGet_named e w h named default, fun unnamed => ?_⟩
    obtain ⟨t, given, visits⟩ := call_headersGet_all e w h unnamed default
    refine ⟨t, given, fun key v present => ?_⟩
    have entry := visits.mem_iff key v
    rw [and_iff_right present, List.mem_map] at entry
    rw [← entry]
    constructor
    · rintro ⟨⟨name, value⟩, listed, same⟩
      obtain ⟨rfl, rfl⟩ := Prod.mk.inj same
      obtain ⟨low, found⟩ := Caller.mem_headerPairs.mp listed
      exact ⟨name, value, low, found, rfl, rfl⟩
    · rintro ⟨name, value, low, found, rfl, rfl⟩
      exact ⟨(name, value), Caller.mem_headerPairs.mpr ⟨low, found⟩, rfl⟩

/-- Two visible values of three, and a way whose first line has nothing but blanks. -/
theorem headers_of_lines_of_forwarded :
    let c : Caller :=
      { session := "s"
        peer := some ⟨.v4 [10, 0, 0, 9], 0, 5000⟩
        headers := [⟨"Accept", Bytes.ofString "text/html"⟩,
          ⟨"X-Forwarded-For", Bytes.ofString ", "⟩, ⟨"accept", [0xC3, 0xA9]⟩,
          ⟨"x-forwarded-for", Bytes.ofString " 192.0.2.7 ,10.0.0.1"⟩,
          ⟨"ACCEPT", Bytes.ofString "a/b"⟩] }
    let e : Surroundings :=
      { call := ⟨c, "m", .null, "m.lua"⟩, seed := 0, costs := ⟨4, 31, 10⟩, now := 0
        network := fun _ => .error "", file := fun _ => none }
    SameName "aCCept" "accept" ∧ c.header "aCCept" = some "text/html, a/b" ∧
      ("accept", "text/html, a/b") ∈ c.headerPairs ∧ c.initiator = "192.0.2.7" ∧
      ∀ default, Host.call e {} {} .headersGet [.text "ACCEPT", default] =
        ⟨.ok [.text "text/html, a/b"], {}, {}⟩ := by
  intro c e
  have hidden (value : String) : ¬HeaderLine.Shows ⟨"accept", [0xC3, 0xA9]⟩ value :=
    fun shows => nomatch Caller.shows_iff.mp shows
  have shows (name value : String) (visible : Utf8.visible? (Bytes.ofString value) = some value) :
      HeaderLine.Shows ⟨name, Bytes.ofString value⟩ value := Caller.shows_iff.mpr visible
  have accept : Collects "accept" c.headers ["text/html", "a/b"] :=
    .shown (by decide) (shows _ _ (by decide +kernel)) <| .other (by decide) <| .hidden hidden <|
      .other (by decide) <| .shown (by decide) (shows _ _ (by decide +kernel)) .done
  have forwarded : Collects "x-forwarded-for" c.headers [", ", " 192.0.2.7 ,10.0.0.1"] :=
    .other (by decide) <| .shown (by decide) (shows _ _ (by decide +kernel)) <|
      .other (by decide) <| .shown (by decide) (shows _ _ (by decide +kernel)) <|
        .other (by decide) .done
  have hops : [", ", " 192.0.2.7 ,10.0.0.1"].flatMap (Text.split ',') =
      ["", " ", " 192.0.2.7 ", "10.0.0.1"] := by decide +kernel
  have leads : LeadsTo c.peer ["", " ", " 192.0.2.7 ", "10.0.0.1"] "192.0.2.7" := by
    have trimmed : Text.trim " 192.0.2.7 " = "192.0.2.7" := by decide +kernel
    exact .blank (by decide) (.blank (by decide) (trimmed ▸ .hop (by decide)))
  obtain ⟨value, -, same, -, listed, -, origin, told⟩ := headers_of_lines c
  have found : c.header "accept" = some "text/html, a/b" :=
    (value _ _).mpr ⟨_, by simp, accept, by decide +kernel⟩
  have spelled : SameName "aCCept" "accept" := by decide
  refine ⟨spelled, (same _ _ spelled).trans found, (listed _ _).mpr ⟨by decide, found⟩,
    (origin _).mpr ⟨_, forwarded, hops ▸ leads⟩, fun default => ?_⟩
  have given := (told e {} {} (.text "ACCEPT") default rfl).1 "ACCEPT"
    (congrArg some (Utf8.lossy_ofString "ACCEPT"))
  rw [given, same "ACCEPT" "accept" (by decide), found]
  rfl

end ScriptGate.Guest.Request

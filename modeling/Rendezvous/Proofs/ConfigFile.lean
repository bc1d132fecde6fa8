import Rendezvous.Config
import Rendezvous.Proofs.AddressText
import Rendezvous.Proofs.FileTree

/-!
# Configurations kept in files

A configuration whose folder of records has a text is written as one JSON object, and each
of its members fills the field of its name again. Main statement: a file that a
configuration can be written to holds, once it was saved, that configuration and no other;
and where it cannot be put as a text, nothing is written.
-/

namespace Rendezvous

open Files

namespace Files

theorem Path.ofString_of_text? {p : Path} {text : String} (h : p.text? = some text) :
    Path.ofString text = p := by
  rw [text?, String.fromUTF8?] at h
  split at h
  · cases h
    simp [ofString, String.fromUTF8]
  · cases h

end Files

namespace Json

theorem reads_uint16 (n : UInt16) : Reads readUInt16 (.natural n.toNat) n := by
  intro level rest hrest
  have hread := reads_natural "u16" n.toNat_lt (by decide) level rest hrest
  simp only [readUInt16, UInt16.size]
  rw [hread]
  simp [bind, Except.bind]

theorem reads_boolean (value : Bool) : Reads readBoolean (.boolean value) value := by
  intro level rest _
  cases value with
  | true => simp [prettyChars, readBoolean, skipSpace, isSpace, readWord, bind, Except.bind]
  | false => simp [prettyChars, readBoolean, skipSpace, isSpace, readWord, bind, Except.bind]

end Json

namespace Config

theorem reads_address (a : Address) : Json.Reads readAddress (.string a.text) a :=
  Json.reads_parsed "IP address" (by rw [Address.ofString?_text])

theorem reads_path {p : Path} {text : String} (h : p.text? = some text) :
    Json.Reads readPath (.string text) p :=
  Json.reads_parsed "path string" (congrArg Except.ok (Path.ofString_of_text? h))

theorem reads_guidPrefix (p : GuidPrefix) : Json.Reads ServerRecord.readPrefix (.string p.text) p :=
  Json.reads_parsed "a string" p.parse_text

def draft (c : Config) : Draft :=
  ⟨some c.serverPrefix, some c.listenAddress, some c.listenPort, some c.peerAddress,
    some c.peerPort, some c.recoveryPrefix, some c.recoveryListenPort, some c.recoveryPeerPort,
    some c.recoveryWait, some c.stateDir, some c.includeInternals⟩

/-- A configuration is read back from its text, whatever stands in for what a text leaves out. -/
theorem ofString_toJson? (base c : Config) {json : Json} (h : c.toJson? = some json) :
    ofString base json.pretty = .ok c := by
  obtain ⟨text, htext, hobject⟩ := Option.map_eq_some_iff.1 h
  have hread : (schema base).ofString json.pretty = .ok c := by
    rw [← hobject]
    refine @Json.Schema.ofString_pretty _ _ (schema base) c.draft _ c ?_ (List.cons_ne_nil _ _) rfl
    refine .cons rfl rfl (Json.reads_field _ _ _ (reads_guidPrefix c.serverPrefix) _) ?_
    refine .cons rfl rfl (Json.reads_field _ _ _ (reads_address c.listenAddress) _) ?_
    refine .cons rfl rfl (Json.reads_field _ _ _ (Json.reads_uint16 c.listenPort) _) ?_
    refine .cons rfl rfl (Json.reads_field _ _ _ (reads_address c.peerAddress) _) ?_
    refine .cons rfl rfl (Json.reads_field _ _ _ (Json.reads_uint16 c.peerPort) _) ?_
    refine .cons rfl rfl (Json.reads_field _ _ _ (reads_guidPrefix c.recoveryPrefix) _) ?_
    refine .cons rfl rfl (Json.reads_field _ _ _ (Json.reads_uint16 c.recoveryListenPort) _) ?_
    refine .cons rfl rfl (Json.reads_field _ _ _ (Json.reads_uint16 c.recoveryPeerPort) _) ?_
    refine .cons rfl rfl (Json.reads_field _ _ _ (Json.reads_uint64 c.recoveryWait) _) ?_
    refine .cons rfl rfl (Json.reads_field _ _ _ (reads_path htext) _) ?_
    refine .cons rfl rfl (Json.reads_field _ _ _ (Json.reads_boolean c.includeInternals) _) ?_
    exact .nil _
  rw [ofString, hread]

/-- What a saved configuration is loaded as from the file that it was saved to. -/
theorem load_of_save {base c : Config} {files : Tree} {path : Path}
    (h : (c.save files path).2 = .ok ()) : load base (c.save files path).1 path = .ok c := by
  cases hjson : c.toJson? with
  | none => simp [save, hjson] at h
  | some json =>
      cases hwrite : files.write path json.pretty.toUTF8 with
      | error e =>
          simp only [save, hjson, hwrite] at h
          cases h
      | ok files' =>
          have hfiles : (c.save files path).1 = files' := by simp only [save, hjson, hwrite]
          rw [hfiles, load, Tree.readText_write hwrite]
          exact ofString_toJson? base c hjson

theorem save_of_text {c : Config} {text : String} (h : c.stateDir.text? = some text)
    {files : Tree} {path : Path} (hpath : files.Writable path) :
    (c.save files path).2 = .ok () := by
  have hjson : ∃ json, c.toJson? = some json := ⟨_, by rw [toJson?, h, Option.map_some]⟩
  obtain ⟨json, hjson⟩ := hjson
  obtain ⟨files', hwrite⟩ := hpath.write json.pretty.toUTF8
  simp only [save, hjson, hwrite]

theorem save_of_no_text {c : Config} (h : c.stateDir.text? = none) (files : Tree) (path : Path) :
    c.save files path =
      (files, .error (.serialize "path contains invalid UTF-8 characters")) := by
  rw [save, toJson?, h]
  rfl

/-- Where a file can be written, saving works exactly if the folder of the records has a text,
and what is loaded afterwards is what was saved; otherwise all files stay as they were. -/
theorem load_save (base c : Config) {files : Tree} {path : Path} (hpath : files.Writable path) :
    ((c.save files path).2 = .ok () ↔ c.stateDir.text?.isSome) ∧
      ((c.save files path).2 = .ok () → load base (c.save files path).1 path = .ok c) ∧
      (c.stateDir.text? = none → c.save files path =
        (files, .error (.serialize "path contains invalid UTF-8 characters"))) := by
  refine ⟨?_, load_of_save, fun h => save_of_no_text h files path⟩
  cases htext : c.stateDir.text? with
  | none => simp [save_of_no_text htext files path]
  | some text => simp [save_of_text htext hpath]

/-- A configuration with a folder whose name is full of escapes, an address that is written with
decimal numbers behind its groups, and one that is written with a gap. -/
def crooked : Config :=
  { default (.ofString "/tmp/\"\\\u0001\n\u00e9") with
    listenAddress := .v6 #v[0, 0, 0, 0, 0, 0, 0, 0, 0, 0, 0xff, 0xff, 10, 0, 0, 1]
    peerAddress := .v6 #v[0x20, 1, 0x0d, 0xb8, 0, 0, 0, 0, 0, 1, 0, 0, 0, 0, 0, 1]
    listenPort := 0
    recoveryWait := 0xffffffffffffffff }

theorem load_save_crooked : Tree.empty.Writable (.ofString "bridge.json") ∧
    load (default Inhabited.default) (crooked.save Tree.empty (.ofString "bridge.json")).1
      (.ofString "bridge.json") = .ok crooked := by
  have hpath : Tree.empty.Writable (.ofString "bridge.json") := ⟨ByteArray.empty, _, rfl⟩
  have hsaved := load_save (default Inhabited.default) crooked hpath
  have htext : crooked.stateDir.text?.isSome := by
    rw [crooked, default, Path.text?_ofString]
    rfl
  exact ⟨hpath, hsaved.2.1 (hsaved.1.2 htext)⟩

end Config

end Rendezvous

import Rendezvous.Proofs.ConfigFile
import Rendezvous.Proofs.ObjectText

/-!
# Configuration files that leave things out

A configuration file may give any of the eleven fields, in any order and layout, and
anything else besides. Main statement: what it gives replaces the default of its field,
and nothing else is changed; what stands in for a field that is left out is the default.
-/

namespace Rendezvous

open Files Text

namespace Json

theorem readNatural_skipSpace (expected : String) (limit : Nat) (text : List Char) :
    readNatural expected limit (skipSpace text) = readNatural expected limit text := by
  rw [readNatural, readNatural, skipSpace_skipSpace]

theorem readsAs_natural {α : Type} {read : Reader α} {text : List Char} {n : Nat} {value : α}
    (hread : Reads read (.natural n) value) (hskip : ∀ text, read (skipSpace text) = read text)
    (h : IsNatural text n) : ReadsAs read text value :=
  (h : text = prettyChars 0 (.natural n)) ▸ hread.readsAs hskip

theorem readsAs_uint16 {text : List Char} {n : UInt16} (h : IsNatural text n.toNat) :
    ReadsAs readUInt16 text n := by
  refine readsAs_natural (reads_uint16 n) (fun text => ?_) h
  rw [readUInt16, readUInt16, readNatural_skipSpace]

theorem readsAs_uint64 {text : List Char} {n : UInt64} (h : IsNatural text n.toNat) :
    ReadsAs readUInt64 text n := by
  refine readsAs_natural (reads_uint64 n) (fun text => ?_) h
  rw [readUInt64, readUInt64, readNatural_skipSpace]

theorem readsAs_boolean {text : List Char} {value : Bool} (h : IsFlag text value) :
    ReadsAs readBoolean text value := by
  have hread := (reads_boolean value).readsAs fun text => by
    rw [readBoolean, readBoolean, skipSpace_skipSpace]
  cases h with
  | yes => exact hread
  | no => exact hread

end Json

namespace Config

open Json

def IsPrefix (text : List Char) (p : GuidPrefix) : Prop :=
  ∃ s, IsLiteral text s ∧ GuidPrefix.parse s = .ok p

def IsAddress (text : List Char) (a : Address) : Prop :=
  ∃ s, IsLiteral text s ∧ Address.ofString? s = some a

def IsPath (text : List Char) (p : Path) : Prop := ∃ s, IsLiteral text s ∧ Path.ofString s = p

def IsPort (text : List Char) (port : UInt16) : Prop := IsNatural text port.toNat

def IsWait (text : List Char) (wait : UInt64) : Prop := IsNatural text wait.toNat

/-- Whether members give the fields of a draft, each at most once and with a value of its type,
and whatever else they give is well-formed. -/
structure Draft.Told (ms : List (String × List Char)) (d : Draft) : Prop where
  serverPrefix : Gives ms "server_guid_prefix" IsPrefix d.serverPrefix
  listenAddress : Gives ms "listen_address" IsAddress d.listenAddress
  listenPort : Gives ms "listen_port" IsPort d.listenPort
  peerAddress : Gives ms "peer_address" IsAddress d.peerAddress
  peerPort : Gives ms "peer_port" IsPort d.peerPort
  recoveryPrefix : Gives ms "recovery_guid_prefix" IsPrefix d.recoveryPrefix
  recoveryListenPort : Gives ms "recovery_listen_port" IsPort d.recoveryListenPort
  recoveryPeerPort : Gives ms "recovery_peer_port" IsPort d.recoveryPeerPort
  recoveryWait : Gives ms "recovery_wait_ms" IsWait d.recoveryWait
  stateDir : Gives ms "state_dir" IsPath d.stateDir
  includeInternals : Gives ms "include_internals" IsFlag d.includeInternals
  other : ∀ m ∈ ms, m.1 ∉ ["server_guid_prefix", "listen_address", "listen_port",
    "peer_address", "peer_port", "recovery_guid_prefix", "recovery_listen_port",
    "recovery_peer_port", "recovery_wait_ms", "state_dir", "include_internals"] →
      WellFormed .value m.2

/-! ## The eleven fields -/

theorem readsAs_prefix {text : List Char} {p : GuidPrefix} (h : IsPrefix text p) :
    ReadsAs ServerRecord.readPrefix text p := by
  obtain ⟨s, htext, hparse⟩ := h
  exact readsAs_parsed htext hparse

theorem readsAs_address {text : List Char} {a : Address} (h : IsAddress text a) :
    ReadsAs readAddress text a := by
  obtain ⟨s, htext, hread⟩ := h
  exact readsAs_parsed htext (by rw [hread])

theorem readsAs_path {text : List Char} {p : Path} (h : IsPath text p) :
    ReadsAs readPath text p := by
  obtain ⟨s, htext, rfl⟩ := h
  exact @readsAs_parsed _ _ (.ok ∘ Path.ofString) _ _ _ htext rfl

def slots : List (Slot Draft) := [
  ⟨"server_guid_prefix", (·.serverPrefix), fun v d => { d with serverPrefix := some v },
    ServerRecord.readPrefix, IsPrefix, readsAs_prefix⟩,
  ⟨"listen_address", (·.listenAddress), fun v d => { d with listenAddress := some v },
    readAddress, IsAddress, readsAs_address⟩,
  ⟨"listen_port", (·.listenPort), fun v d => { d with listenPort := some v }, readUInt16, IsPort,
    readsAs_uint16⟩,
  ⟨"peer_address", (·.peerAddress), fun v d => { d with peerAddress := some v }, readAddress,
    IsAddress, readsAs_address⟩,
  ⟨"peer_port", (·.peerPort), fun v d => { d with peerPort := some v }, readUInt16, IsPort,
    readsAs_uint16⟩,
  ⟨"recovery_guid_prefix", (·.recoveryPrefix), fun v d => { d with recoveryPrefix := some v },
    ServerRecord.readPrefix, IsPrefix, readsAs_prefix⟩,
  ⟨"recovery_listen_port", (·.recoveryListenPort),
    fun v d => { d with recoveryListenPort := some v }, readUInt16, IsPort, readsAs_uint16⟩,
  ⟨"recovery_peer_port", (·.recoveryPeerPort), fun v d => { d with recoveryPeerPort := some v },
    readUInt16, IsPort, readsAs_uint16⟩,
  ⟨"recovery_wait_ms", (·.recoveryWait), fun v d => { d with recoveryWait := some v },
    readUInt64, IsWait, readsAs_uint64⟩,
  ⟨"state_dir", (·.stateDir), fun v d => { d with stateDir := some v }, readPath, IsPath,
    readsAs_path⟩,
  ⟨"include_internals", (·.includeInternals), fun v d => { d with includeInternals := some v },
    readBoolean, IsFlag, readsAs_boolean⟩]

theorem fields_schema (base : Config) : (schema base).fields = slots.map Slot.field := rfl

theorem isRecord_slots : IsRecord slots Draft.blank where
  nodup := by decide
  get_blank x hx := by
    simp only [slots, List.mem_cons, List.not_mem_nil, or_false] at hx
    obtain rfl | rfl | rfl | rfl | rfl | rfl | rfl | rfl | rfl | rfl | rfl := hx <;> rfl
  get_set x hx value draft := by
    simp only [slots, List.mem_cons, List.not_mem_nil, or_false] at hx
    obtain rfl | rfl | rfl | rfl | rfl | rfl | rfl | rfl | rfl | rfl | rfl := hx <;> rfl
  get_set_of_ne x hx y hy hne value draft := by
    simp only [slots, List.mem_cons, List.not_mem_nil, or_false] at hx hy
    obtain rfl | rfl | rfl | rfl | rfl | rfl | rfl | rfl | rfl | rfl | rfl := hx <;>
      obtain rfl | rfl | rfl | rfl | rfl | rfl | rfl | rfl | rfl | rfl | rfl := hy <;>
        first | exact absurd rfl hne | rfl
  ext draft draft' h := by
    simp only [slots, List.forall_mem_cons] at h
    obtain ⟨h₁, h₂, h₃, h₄, h₅, h₆, h₇, h₈, h₉, h₁₀, h₁₁, _⟩ := h
    cases draft
    cases draft'
    simp only [Draft.mk.injEq]
    exact ⟨h₁, h₂, h₃, h₄, h₅, h₆, h₇, h₈, h₉, h₁₀, h₁₁⟩

theorem Draft.Told.gives {ms : List (String × List Char)} {d : Draft} (h : d.Told ms) :
    ∀ x ∈ slots, Gives ms x.name x.Says (x.get d) := by
  simp only [slots, List.forall_mem_cons]
  exact ⟨h.serverPrefix, h.listenAddress, h.listenPort, h.peerAddress, h.peerPort,
    h.recoveryPrefix, h.recoveryListenPort, h.recoveryPeerPort, h.recoveryWait, h.stateDir,
    h.includeInternals, nofun⟩

theorem standIn_eq_default (stateDir : Path) : standIn stateDir = default stateDir := rfl

/-- A file that gives any of the fields, in any order and layout and whatever else it holds, is
loaded as the default with the fields that it gives in place of those of the default. -/
theorem load_overlays {files : Tree} {path : Path} {text : String}
    (hfile : files.readText path = .ok text) {ms : List (String × List Char)}
    (hobject : ObjectText text.toList ms) {d : Draft} (hd : d.Told ms) (stateDir : Path) :
    load (standIn stateDir) files path = .ok (d.complete (default stateDir)) := by
  have hall : (schema (standIn stateDir)).TakesAll Draft.blank ms d :=
    isRecord_slots.takesAll_of_gives (fields_schema _) hd.other hd.gives
  have hread := Schema.ofString_of_takesAll hobject hall rfl
  rw [load, hfile]
  simp only [ofString, hread]
  rw [standIn_eq_default]

/-- Two fields in an odd layout, with a member of another name between them. -/
def oddText : String :=
  "\n\x7b \"peer_port\" : 7 ,\"x\":[null],\t\"state_dir\":\"\\u0061\"\x7d "

def oddMembers : List (String × List Char) :=
  [("peer_port", ['7']), ("x", ['[', 'n', 'u', 'l', 'l', ']']),
    ("state_dir", ['"', '\\', 'u', '0', '0', '6', '1', '"'])]

theorem objectText_odd : ObjectText oddText.toList oddMembers := by
  have hport : MemberText ([' '] ++ '"' :: ("peer_port".toList ++
      '"' :: ([' '] ++ ':' :: ([' '] ++ (['7'] ++ [' ']))))) "peer_port" ['7'] :=
    .intro (by decide) (spells_self (by decide)) (by decide) (by decide) (by decide)
  have hother : MemberText ([] ++ '"' :: ("x".toList ++
      '"' :: ([] ++ ':' :: ([] ++ (['[', 'n', 'u', 'l', 'l', ']'] ++ []))))) "x"
      ['[', 'n', 'u', 'l', 'l', ']'] :=
    .intro rfl (spells_self (by decide)) rfl rfl rfl
  have hdir : MemberText (['\t'] ++ '"' :: ("state_dir".toList ++
      '"' :: ([] ++ ':' :: ([] ++ (['"', '\\', 'u', '0', '0', '6', '1', '"'] ++ []))))) "state_dir"
      ['"', '\\', 'u', '0', '0', '6', '1', '"'] :=
    .intro (by decide) (spells_self (by decide)) rfl rfl rfl
  exact @ObjectText.members ['\n'] _ [' '] _ (by decide) (.more hport (.more hother (.last hdir)))
    (by decide)

theorem told_odd :
    { Draft.blank with peerPort := some 7, stateDir := some (.ofString "a") }.Told oddMembers where
  serverPrefix := rfl
  listenAddress := rfl
  listenPort := rfl
  peerAddress := rfl
  peerPort := ⟨['7'], rfl, rfl⟩
  recoveryPrefix := rfl
  recoveryListenPort := rfl
  recoveryPeerPort := rfl
  recoveryWait := rfl
  stateDir := by
    have hrow : IsHexRow ['0', '0', '6', '1'] 'a'.toNat :=
      ⟨_, _, _, _, 0, 0, 6, 1, rfl, rfl, by decide⟩
    have hspells : Spells ['\\', 'u', '0', '0', '6', '1'] "a".toList :=
      .cons (.unicode hrow) .nil
    exact ⟨_, rfl, "a", ⟨_, rfl, hspells⟩, rfl⟩
  includeInternals := rfl
  other m hm hname := by
    simp only [oddMembers, List.mem_cons, List.not_mem_nil, or_false] at hm
    rcases hm with rfl | rfl | rfl
    · exact absurd (by decide) hname
    · exact .array (.lastItem (@WellFormed.item [] _ [] rfl .nullWord rfl))
    · exact absurd (by decide) hname

theorem load_overlays_odd : ∃ files, Tree.empty.write (.ofString "bridge.json")
    oddText.toUTF8 = .ok files ∧ ObjectText oddText.toList oddMembers ∧
      load (standIn Inhabited.default) files (.ofString "bridge.json") =
        .ok { default Inhabited.default with peerPort := 7, stateDir := .ofString "a" } :=
  have hpath : Tree.empty.Writable (.ofString "bridge.json") := ⟨ByteArray.empty, _, rfl⟩
  have ⟨files, hwrite⟩ := hpath.write oddText.toUTF8
  ⟨files, hwrite, objectText_odd,
    load_overlays (Tree.readText_write hwrite) objectText_odd told_odd Inhabited.default⟩

end Config

end Rendezvous

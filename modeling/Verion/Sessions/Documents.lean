import Verion.Library.Base64
import Verion.Library.Json
import Verion.Library.Redis
import Verion.Identity.Model

/-!
# The documents of the session store (internal/store/session.go)

The store as Redis sees it: keys, members and documents are bytes, and a document is
the JSON text of a session. A Go string is any sequence of bytes; what a JSON text
holds of it is its characters. How `time.Time` writes itself is a parameter.
-/

namespace Verion.Sessions.Documents

open Calls Redis

open Base64 (ascii)

/-- `MarshalJSON` and `UnmarshalJSON` of a time. A time outside of the years 0 to 9999 is
not written. -/
structure TimeText where
  write : Time → Option (List Char)
  read : List Char → Option Time
  read_write : ∀ t text, write t = some text → read text = some t

structure SessionData where
  sessionID : Bytes
  identityID : Bytes
  tenantID : Bytes
  handle : Bytes
  createdAt : Time
  lastSeenAt : Time
  deviceInfo : Bytes
  ipAddress : Bytes
deriving DecidableEq

/-- The fields with their `json` tags, in the order of the struct. -/
def fields (T : TimeText) : List (Json.Member SessionData) :=
  [.string "session_id".toList (by decide +kernel) (·.sessionID) ({ · with sessionID := · }),
    .string "identity_id".toList (by decide +kernel) (·.identityID) ({ · with identityID := · }),
    .string "tenant_id".toList (by decide +kernel) (·.tenantID) ({ · with tenantID := · }),
    .string "handle".toList (by decide +kernel) (·.handle) ({ · with handle := · }),
    .text "created_at".toList (by decide +kernel) T.write T.read (·.createdAt)
      ({ · with createdAt := · }),
    .text "last_seen_at".toList (by decide +kernel) T.write T.read (·.lastSeenAt)
      ({ · with lastSeenAt := · }),
    .string "device_info".toList (by decide +kernel) (·.deviceInfo) ({ · with deviceInfo := · }),
    .string "ip_address".toList (by decide +kernel) (·.ipAddress) ({ · with ipAddress := · })]

/-- The first instant of the year 1, the zero of `time.Time`. -/
def zeroTime : Time := -62135596800000000000

def zeroSession : SessionData where
  sessionID := []
  identityID := []
  tenantID := []
  handle := []
  createdAt := zeroTime
  lastSeenAt := zeroTime
  deviceInfo := []
  ipAddress := []

def marshal (T : TimeText) (data : SessionData) : Option Bytes := Json.marshal (fields T) data

def unmarshal (T : TimeText) (b : Bytes) : Option SessionData :=
  Json.unmarshal (fields T) zeroSession b

/-! ### SessionStore -/

inductive StoreError where
  | sessionNotFound
  | redis (context : Bytes) (e : Failure)
  | marshal (context : Bytes)
  | unmarshal (context : Bytes)
deriving DecidableEq

abbrev Store (α : Type) := Program (@Command.Reply Bytes Bytes) StoreError α

def key (sessionID : Bytes) : Bytes := ascii "session:" ++ sessionID

def indexKey (identityID : Bytes) : Bytes := ascii "sessions:identity:" ++ identityID

/-- `pipe.Exec`. -/
def exec (ws : List (Write Bytes Bytes)) (context : Bytes) : Store Unit := do
  match ← pipeline ws with
  | none => .ret ()
  | some e => .fail (.redis context e)

def create (T : TimeText) (ttl : Nat) (data : SessionData) : Store Unit :=
  match marshal T data with
  | none => .fail (.marshal (ascii "session store: marshal"))
  | some b =>
    exec [.set (key data.sessionID) b ttl,
          .sAdd (indexKey data.identityID) data.sessionID,
          .expire (indexKey data.identityID) ttl] (ascii "session store: create")

/-- `GET`, with the errors of a missing key and of a text that is no session. -/
def load (T : TimeText) (sessionID getContext unmarshalContext : Bytes) : Store SessionData :=
  .call (.get (key sessionID)) fun
    | .error e => .fail (.redis getContext e)
    | .ok none => .fail .sessionNotFound
    | .ok (some b) =>
      match unmarshal T b with
      | none => .fail (.unmarshal unmarshalContext)
      | some data => .ret data

/-- The refreshing `SET` is best effort: it is left out if the session is not written again,
and its error is dropped (`session.go:86-92`). -/
def refresh (T : TimeText) (ttl : Nat) (sessionID : Bytes) (data : SessionData) :
    Store SessionData := do
  let now ← .call .now .ret
  let data := { data with lastSeenAt := now }
  match marshal T data with
  | none => .ret data
  | some updated =>
    let _ ← .call (.write (.set (key sessionID) updated ttl)) .ret
    .ret data

def get (T : TimeText) (ttl : Nat) (sessionID : Bytes) : Store SessionData := do
  let data ← load T sessionID (ascii "session store: get") (ascii "session store: unmarshal")
  refresh T ttl sessionID data

def delete (T : TimeText) (sessionID : Bytes) : Store Unit := do
  let data ← load T sessionID (ascii "session store: delete get")
    (ascii "session store: delete unmarshal")
  exec [.del (key sessionID), .sRem (indexKey data.identityID) sessionID]
    (ascii "session store: delete")

def deleteAll (identityID : Bytes) : Store Unit :=
  .call (.sMembers (indexKey identityID)) fun
    | .error e => .fail (.redis (ascii "session store: delete all: list sessions") e)
    | .ok [] => .ret ()
    | .ok sessionIDs =>
      exec (sessionIDs.map (fun sid => .del (key sid)) ++ [.del (indexKey identityID)])
        (ascii "session store: delete all")

/-- The loop of `ListByIdentity`: a stale index entry is removed, a text that is no
session is skipped (`session.go:154-169`). -/
def listFrom (T : TimeText) (identityID : Bytes) : List Bytes → Store (List SessionData)
  | [] => .ret []
  | sid :: sids => .call (.get (key sid)) fun
    | .error e => .fail (.redis (ascii "session store: list get " ++ sid) e)
    | .ok none =>
      .call (.write (.sRem (indexKey identityID) sid)) fun _ => listFrom T identityID sids
    | .ok (some b) =>
      match unmarshal T b with
      | none => listFrom T identityID sids
      | some data => do
        let rest ← listFrom T identityID sids
        .ret (data :: rest)

def listByIdentity (T : TimeText) (identityID : Bytes) : Store (List SessionData) :=
  .call (.sMembers (indexKey identityID)) fun
    | .error e => .fail (.redis (ascii "session store: list") e)
    | .ok sessionIDs => listFrom T identityID sessionIDs

inductive Request where
  | create (data : SessionData)
  | get (sessionID : Bytes)
  | delete (sessionID : Bytes)
  | deleteAll (identityID : Bytes)
  | listByIdentity (identityID : Bytes)

/-- The sessions a request returns. -/
def respond {α : Type} (f : α → List SessionData) (p : Store α) : Store (List SessionData) := do
  let a ← p
  .ret (f a)

def Request.program (T : TimeText) (ttl : Nat) : Request → Store (List SessionData)
  | .create data => respond (fun _ => []) (Documents.create T ttl data)
  | .get sessionID => respond (fun session => [session]) (Documents.get T ttl sessionID)
  | .delete sessionID => respond (fun _ => []) (Documents.delete T sessionID)
  | .deleteAll identityID => respond (fun _ => []) (Documents.deleteAll identityID)
  | .listByIdentity identityID => respond id (Documents.listByIdentity T identityID)

/-! ### Keys -/

theorem key_injective {a b : Bytes} (h : key a = key b) : a = b :=
  List.append_cancel_left h

theorem indexKey_injective {a b : Bytes} (h : indexKey a = indexKey b) : a = b :=
  List.append_cancel_left h

/-- The two families of keys differ in their eighth byte. -/
theorem key_ne_indexKey (sessionID identityID : Bytes) : key sessionID ≠ indexKey identityID := by
  have hkey : ascii "session:" = [115, 101, 115, 115, 105, 111, 110, 58] := by decide +kernel
  have hindex : ascii "sessions:identity:" =
      [115, 101, 115, 115, 105, 111, 110, 115] ++ ascii ":identity:" := by decide +kernel
  intro h
  have heighth := congrArg (fun s => s[7]?) h
  simp [key, indexKey, hkey, hindex] at heighth

/-! ### What becomes of a session in its document -/

/-- A string as JSON keeps it: a byte that is no part of a character is U+FFFD. -/
def readable (s : Bytes) : Bytes := Utf8.encode (Utf8.runes s)

def SessionData.readable (data : SessionData) : SessionData where
  sessionID := Documents.readable data.sessionID
  identityID := Documents.readable data.identityID
  tenantID := Documents.readable data.tenantID
  handle := Documents.readable data.handle
  createdAt := data.createdAt
  lastSeenAt := data.lastSeenAt
  deviceInfo := Documents.readable data.deviceInfo
  ipAddress := Documents.readable data.ipAddress

theorem readable_encode (cs : List Char) : readable (Utf8.encode cs) = Utf8.encode cs := by
  rw [readable, Utf8.runes_encode]

theorem readable_readable (data : SessionData) : data.readable.readable = data.readable := by
  have hstring : ∀ s, readable (readable s) = readable s := fun s => readable_encode _
  simp only [SessionData.readable, hstring]

/-- All strings are characters in UTF-8. -/
def SessionData.IsText (data : SessionData) : Prop :=
  ∀ s ∈ [data.sessionID, data.identityID, data.tenantID, data.handle, data.deviceInfo,
    data.ipAddress], ∃ cs, s = Utf8.encode cs

theorem SessionData.IsText.readable_eq {data : SessionData} (h : data.IsText) :
    data.readable = data := by
  have hstring : ∀ s ∈ [data.sessionID, data.identityID, data.tenantID, data.handle,
      data.deviceInfo, data.ipAddress], Documents.readable s = s := by
    intro s hs
    obtain ⟨cs, rfl⟩ := h s hs
    exact readable_encode cs
  simp only [List.mem_cons, List.not_mem_nil, or_false, forall_eq_or_imp, forall_eq] at hstring
  obtain ⟨hsid, hid, htenant, hhandle, hdevice, hip⟩ := hstring
  simp only [SessionData.readable, hsid, hid, htenant, hhandle, hdevice, hip]

variable {T : TimeText} {data : SessionData} {b : Bytes}

/-- The times are what may keep a session from being written. -/
theorem marshal_isSome : (marshal T data).isSome = true ↔
    (T.write data.createdAt).isSome = true ∧ (T.write data.lastSeenAt).isSome = true := by
  simp only [marshal, Json.marshal, Json.writeFields, fields, Json.Member.string,
    Json.Member.text, List.mapM_cons, List.mapM_nil]
  cases T.write data.createdAt <;> cases T.write data.lastSeenAt <;> simp

theorem fields_names : (fields T).Pairwise fun f g =>
    Json.foldName f.name ≠ Json.foldName g.name := by
  have hnames : ((fields T).map fun f => Json.foldName f.name).Pairwise (· ≠ ·) := by
    show (["session_id", "identity_id", "tenant_id", "handle", "created_at", "last_seen_at",
      "device_info", "ip_address"].map fun name => Json.foldName name.toList).Pairwise (· ≠ ·)
    decide +kernel
  exact List.pairwise_map.mp hnames

/-- A session is read from its document with its strings readable. -/
theorem unmarshal_marshal (h : marshal T data = some b) :
    unmarshal T b = some data.readable := by
  obtain ⟨hcreated, hseen⟩ := marshal_isSome.mp (Option.isSome_of_eq_some h)
  obtain ⟨created, hcreated⟩ := Option.isSome_iff_exists.mp hcreated
  obtain ⟨seen, hseen⟩ := Option.isSome_iff_exists.mp hseen
  rw [unmarshal, Json.unmarshal_marshal fields_names zeroSession h]
  simp only [fields, Json.Member.string, Json.Member.text, List.foldlM_cons, List.foldlM_nil,
    hcreated, hseen, Option.getD_some, T.read_write _ _ hcreated, T.read_write _ _ hseen,
    Option.map_some, Option.bind_eq_bind, Option.bind_some, Option.pure_def]
  rfl

end Verion.Sessions.Documents

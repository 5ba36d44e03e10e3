import SqliteSync.Network.StoredCursor
import SqliteSync.Store.Feed

/-!
# Sending changes

`cloudsync_network_send_changes` uploads the local rows of the feed that are
above the stored pair of a db version and a sequence number. The new pair is the
largest db version of the whole feed, and the largest sequence number of the
selected rows at that version. `cloudsync_network_has_unsent_changes` tells whether
there is anything to upload from the stored db version alone.
-/
namespace SqliteSync.Network
open Library Store Config

/-- What the functions of the network read: the database, the settings in it, and the
site id in the context. -/
structure Client {n : ℕ} (schema : Fin n → TableContext) where
  replica : Replica schema
  settings : Settings
  siteId : SiteId

/-- What a send meets: whether the network was initialised, for which rows the
aggregate finds memory and whether it can encode them, and the answers of the
server, whose error texts it may have left out. -/
structure SendInput where
  network : Bool
  grants : ℕ → Bool
  encode : Bool
  uploadUrl : Except (Option String) String
  upload : Bool
  notify : Except (Option String) Unit

/-- Nothing fails. -/
def SendInput.sound : SendInput := ⟨true, fun _ => true, true, .ok "", true, .ok ()⟩

/-- How a send ends: the settings after it, and the rows of the payload that was
uploaded and announced. -/
structure SendResult (n : ℕ) where
  outcome : Except String Unit
  settings : Settings
  sent : List (Change n)

section
variable {n : ℕ} {schema : Fin n → TableContext}

/-- `MAX(db_version)`, a NULL read as zero. -/
def maxDbVersion (rows : List (Change n)) : ℤ := (rows.map Change.dbVersion).max?.getD 0

/-- `MAX(IIF(db_version = max_db_version, seq, NULL))`. -/
def maxSeq (rows : List (Change n)) (dbVersion : ℤ) : ℤ :=
  ((rows.filter fun c => c.dbVersion == dbVersion).map Change.seq).max?.getD 0

/-- The rows in the aggregate after the last step: a step without memory empties it. -/
def payloadRows (grants : ℕ → Bool) (rows : List (Change n)) : List (Change n) :=
  rows.zipIdx.foldl (fun kept row => if grants row.2 then kept ++ [row.1] else []) []

namespace Client
variable (x : Client schema)

def sendCursor (d : Reader) : Except String (ℤ × ℤ) :=
  d.cursor x.settings CLOUDSYNC_KEY_SEND_DBVERSION CLOUDSYNC_KEY_SEND_SEQ

/-- `site_id=cloudsync_siteid() AND (db_version>%d OR (db_version=%d AND seq>%d))`. -/
def selects (dbVersion seq : ℤ) (c : Change n) : Bool :=
  c.siteId == x.siteId &&
    (decide (dbVersion < c.dbVersion) || c.dbVersion == dbVersion && decide (seq < c.seq))

/-- The rows the query of the sender selects, and the largest db version of all rows. -/
def unsentRows (dbVersion seq : ℤ) : Except String (List (Change n) × ℤ) :=
  x.replica.cloudsyncChanges.map fun feed =>
    (feed.filter (x.selects dbVersion seq), maxDbVersion feed)

/-- The rows of the site id that is stored; none when the feed cannot be read. -/
def localRows : List (Change n) :=
  match x.replica.cloudsyncChanges with
  | .error _ => []
  | .ok feed => feed.filter fun c => c.siteId == x.replica.siteOf 0

/-- `dbutils_int_select` of `SELECT max(db_version), hex(site_id) FROM cloudsync_changes
WHERE site_id == (SELECT site_id FROM cloudsync_site_id WHERE rowid=0)`. -/
def maxLocalDbVersion : ℤ :=
  match x.replica.cloudsyncChanges with
  | .error _ => -1
  | .ok _ => maxDbVersion x.localRows

def cloudsyncNetworkHasUnsentChanges (d : Reader) : Bool :=
  let lastLocalChange := toInt32 x.maxLocalDbVersion
  if lastLocalChange = 0 then false else d.hasUnsent x.settings lastLocalChange

def cloudsyncNetworkSendChangesInternal (d : Reader) (inp : SendInput) : SendResult n :=
  if inp.network = false then ⟨.error "Unable to retrieve CloudSync context.", x.settings, []⟩
  else
    match x.sendCursor d with
    | .error err => ⟨.error err, x.settings, []⟩
    | .ok cursor =>
      match x.unsentRows cursor.1 cursor.2, inp.encode with
      | .ok (rows, newDbVersion), true =>
        let payload := payloadRows inp.grants rows
        if payload.isEmpty then ⟨.ok (), x.settings, []⟩
        else
          match inp.uploadUrl with
          | .error err =>
            ⟨.error (err.getD "cloudsync_network_send_changes unable to receive upload URL"),
              x.settings, []⟩
          | .ok _ =>
            if inp.upload = false then
              ⟨.error ("cloudsync_network_send_changes unable to upload BLOB changes to remote " ++
                "host."), x.settings, []⟩
            else
              match inp.notify with
              | .error err =>
                ⟨.error (err.getD ("cloudsync_network_send_changes unable to notify BLOB upload " ++
                  "to remote host.")), x.settings, []⟩
              | .ok () =>
                ⟨.ok (), d.storeSent x.settings newDbVersion (maxSeq rows newDbVersion), payload⟩
      | _, _ => ⟨.error "cloudsync_network_send_changes unable to get changes", x.settings, []⟩

end Client

theorem payloadRows_concat (grants : ℕ → Bool) (rows : List (Change n)) (c : Change n) :
    payloadRows grants (rows ++ [c]) =
      if grants rows.length then payloadRows grants rows ++ [c] else [] := by
  rw [payloadRows, List.zipIdx_append, List.foldl_append, Nat.zero_add]
  rfl

theorem payloadRows_of_granted {grants : ℕ → Bool} {rows : List (Change n)}
    (h : ∀ k < rows.length, grants k = true) : payloadRows grants rows = rows := by
  induction rows using List.reverseRecOn with
  | nil => rfl
  | append_singleton rows c ih =>
    rw [List.length_append, List.length_singleton] at h
    rw [payloadRows_concat, if_pos (h rows.length (Nat.lt_succ_self _)),
      ih fun k hk => h k (Nat.lt_succ_of_lt hk)]

theorem send_sound {x : Client schema} {d : Reader} {v q newest : ℤ} {rows : List (Change n)}
    (hcursor : x.sendCursor d = .ok (v, q)) (hrows : x.unsentRows v q = .ok (rows, newest))
    (hne : rows ≠ []) : x.cloudsyncNetworkSendChangesInternal d .sound =
      ⟨.ok (), d.storeSent x.settings newest (maxSeq rows newest), rows⟩ := by
  have hempty : ¬ rows.isEmpty = true := fun h => hne (List.isEmpty_iff.mp h)
  have hgranted : payloadRows SendInput.sound.grants rows = rows :=
    payloadRows_of_granted fun _ _ => rfl
  rw [Client.cloudsyncNetworkSendChangesInternal, hcursor]
  dsimp only
  rw [hrows]
  simp only [SendInput.sound, Bool.true_eq_false, if_false] at hgranted ⊢
  rw [hgranted, if_neg hempty]

end
end SqliteSync.Network

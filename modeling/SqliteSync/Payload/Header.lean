import SqliteSync.Library.Machine

/-!
# The payload header

Thirty-two packed bytes in front of the rows. Multi-byte fields are put in
network order by the sender and taken out of it by the receiver, each on a
machine of its own byte order.
-/
namespace SqliteSync.Payload
open Library

/-- `'CLSY'`. -/
def CLOUDSYNC_PAYLOAD_SIGNATURE : ℕ := 0x434C5359
def CLOUDSYNC_PAYLOAD_VERSION : ℕ := 1

/-- `CLOUDSYNC_VERSION`, as `sscanf` splits it. -/
def CLOUDSYNC_VERSION : ℕ × ℕ × ℕ := (0, 8, 12)

/-- `sizeof(cloudsync_network_header)`. -/
def headerSize : ℕ := 32

/-- `cloudsync_network_header`, without its padding. -/
structure NetworkHeader where
  signature : ℕ
  version : ℕ
  libversion : ℕ × ℕ × ℕ
  expandedSize : ℕ
  ncols : ℕ
  nrows : ℕ
  schemaHash : ℕ
deriving DecidableEq

/-- The macro `htonll`: the value itself on a big-endian machine, else its two
halves converted and swapped. -/
def htonll : Endian → ℕ → ℕ
  | .big, x => x
  | .little, x =>
    Endian.little.hton 4 (x &&& 0xFFFFFFFF) <<< 32 ||| Endian.little.hton 4 (x >>> 32)

/-- The macro `ntohll`. -/
def ntohll : Endian → ℕ → ℕ
  | .big, x => x
  | .little, x =>
    Endian.little.ntoh 4 (x &&& 0xFFFFFFFF) <<< 32 ||| Endian.little.ntoh 4 (x >>> 32)

/-- The bytes a machine keeps for a header. -/
def NetworkHeader.store (e : Endian) (h : NetworkHeader) : List UInt8 :=
  e.store 4 h.signature ++ [UInt8.ofNat h.version] ++
    [UInt8.ofNat h.libversion.1, UInt8.ofNat h.libversion.2.1, UInt8.ofNat h.libversion.2.2] ++
    e.store 4 h.expandedSize ++ e.store 2 h.ncols ++ e.store 4 h.nrows ++ e.store 8 h.schemaHash ++
    List.replicate 6 0

/-- `memcpy` of a header out of a payload. -/
def NetworkHeader.load (e : Endian) (bytes : List UInt8) : NetworkHeader where
  signature := e.load (bytes.take 4)
  version := e.load ((bytes.drop 4).take 1)
  libversion := (e.load ((bytes.drop 5).take 1), e.load ((bytes.drop 6).take 1),
    e.load ((bytes.drop 7).take 1))
  expandedSize := e.load ((bytes.drop 8).take 4)
  ncols := e.load ((bytes.drop 12).take 2)
  nrows := e.load ((bytes.drop 14).take 4)
  schemaHash := e.load ((bytes.drop 18).take 8)

/-- `cloudsync_network_header_init`; the parameters have the widths of their C types. -/
def cloudsyncNetworkHeaderInit (e : Endian) (expandedSize ncols nrows hash : ℕ) :
    NetworkHeader where
  signature := e.hton 4 CLOUDSYNC_PAYLOAD_SIGNATURE
  version := CLOUDSYNC_PAYLOAD_VERSION
  libversion := CLOUDSYNC_VERSION
  expandedSize := e.hton 4 expandedSize
  ncols := e.hton 2 ncols
  nrows := e.hton 4 nrows
  schemaHash := htonll e hash

/-- The conversions at the start of `cloudsync_payload_apply`. -/
def NetworkHeader.toHost (e : Endian) (h : NetworkHeader) : NetworkHeader :=
  { h with
    signature := e.ntoh 4 h.signature
    expandedSize := e.ntoh 4 h.expandedSize
    ncols := e.ntoh 2 h.ncols
    nrows := e.ntoh 4 h.nrows
    schemaHash := ntohll e h.schemaHash }

/-! ## A header arrives -/

theorem shiftLeft_or_eq (a b : ℕ) (hb : b < 2 ^ 32) : a <<< 32 ||| b = a * 256 ^ 4 + b := by
  rw [← Nat.shiftLeft_add_eq_or_of_lt hb, Nat.shiftLeft_eq]
  norm_num

theorem swap_halves (x : ℕ) :
    beNat (beBytes 4 (x &&& 0xFFFFFFFF)).reverse <<< 32 ||| beNat (beBytes 4 (x >>> 32)).reverse =
      beNat (beBytes 8 x).reverse := by
  have hlt := beNat_lt (beBytes 4 (x >>> 32)).reverse
  have hand : x &&& 0xFFFFFFFF = x % 256 ^ 4 := Nat.and_two_pow_sub_one_eq_mod x 32
  have hshift : x >>> 32 = x / 256 ^ 4 := Nat.shiftRight_eq_div_pow x 32
  rw [List.length_reverse, beBytes_length] at hlt
  rw [shiftLeft_or_eq _ _ (lt_of_lt_of_eq hlt (by norm_num)), hand, hshift, beBytes_mod,
    show (8 : ℕ) = 4 + 4 from rfl, beBytes_add, List.reverse_append, beNat_append,
    List.length_reverse, beBytes_length]

theorem htonll_eq (e : Endian) (x : ℕ) (hx : x < 2 ^ 64) : htonll e x = e.hton 8 x := by
  cases e with
  | little => exact swap_halves x
  | big =>
    rw [Endian.hton, Endian.load_store, Nat.mod_eq_of_lt (lt_of_lt_of_eq hx (by norm_num))]
    rfl

theorem ntohll_eq (e : Endian) (x : ℕ) (hx : x < 2 ^ 64) : ntohll e x = e.ntoh 8 x := by
  cases e with
  | little => exact swap_halves x
  | big =>
    rw [Endian.ntoh, Endian.load_store, Nat.mod_eq_of_lt (lt_of_lt_of_eq hx (by norm_num))]
    rfl

theorem load_lt (e : Endian) (bytes : List UInt8) : e.load bytes < 256 ^ bytes.length := by
  cases e with
  | little =>
    rw [← List.length_reverse]
    exact beNat_lt bytes.reverse
  | big => exact beNat_lt bytes

theorem store_length_header (e : Endian) (h : NetworkHeader) : (h.store e).length = headerSize := by
  simp [NetworkHeader.store, headerSize]

theorem load_fields (e : Endian) (s x n r h rest : List UInt8) (v l0 l1 l2 : UInt8)
    (hs : s.length = 4) (hx : x.length = 4) (hn : n.length = 2) (hr : r.length = 4)
    (hh : h.length = 8) :
    NetworkHeader.load e (s ++ ([v] ++ ([l0, l1, l2] ++ (x ++ (n ++ (r ++ (h ++ rest))))))) =
      ⟨e.load s, e.load [v], (e.load [l0], e.load [l1], e.load [l2]), e.load x, e.load n, e.load r,
        e.load h⟩ := by
  have hs' (k : ℕ) (hk : 4 ≤ k) : s.drop k = [] := List.drop_eq_nil_of_le (by omega)
  have hx' (k : ℕ) (hk : 4 ≤ k) : x.drop k = [] := List.drop_eq_nil_of_le (by omega)
  have hn' (k : ℕ) (hk : 2 ≤ k) : n.drop k = [] := List.drop_eq_nil_of_le (by omega)
  simp [NetworkHeader.load, List.take_append, List.drop_append, hs, hx, hn, hr, hh, hs', hx', hn']

theorem load_singleton (e : Endian) (b : UInt8) : e.load [b] = b.toNat := by
  cases e <;> simp [Endian.load, beNat]

/-- What the receiver reads at the start of a payload is what the sender put into
the header, on any two machines. -/
theorem toHost_load_store_init (e e' : Endian) (expandedSize ncols nrows hash : ℕ)
    (hx : expandedSize < 2 ^ 32) (hn : ncols < 2 ^ 16) (hr : nrows < 2 ^ 32) (hh : hash < 2 ^ 64)
    (rest : List UInt8) :
    (NetworkHeader.load e'
      ((cloudsyncNetworkHeaderInit e expandedSize ncols nrows hash).store e ++ rest)).toHost e' =
      ⟨CLOUDSYNC_PAYLOAD_SIGNATURE, CLOUDSYNC_PAYLOAD_VERSION, CLOUDSYNC_VERSION, expandedSize,
        ncols, nrows, hash⟩ := by
  have field (n v : ℕ) (hv : v < 256 ^ n) : e'.ntoh n (e'.load (beBytes n v)) = v := by
    rw [← e.store_hton n v, Endian.ntoh_load_store_hton, Nat.mod_eq_of_lt hv]
  have hload := load_lt e' (beBytes 8 hash)
  rw [beBytes_length] at hload
  simp only [NetworkHeader.store, cloudsyncNetworkHeaderInit, htonll_eq e hash hh,
    Endian.store_hton, List.append_assoc]
  rw [load_fields e' _ _ _ _ _ _ _ _ _ _ (beBytes_length _ _) (beBytes_length _ _)
    (beBytes_length _ _) (beBytes_length _ _) (beBytes_length _ _)]
  simp only [NetworkHeader.toHost, ntohll_eq e' _ (lt_of_lt_of_eq hload (by norm_num)),
    load_singleton]
  rw [field 4 _ (by decide), field 4 _ (lt_of_lt_of_eq hx (by norm_num)),
    field 2 _ (lt_of_lt_of_eq hn (by norm_num)), field 4 _ (lt_of_lt_of_eq hr (by norm_num)),
    field 8 _ (lt_of_lt_of_eq hh (by norm_num))]
  rfl

end SqliteSync.Payload

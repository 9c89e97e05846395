import RemoteTable.Rejoin
import RemoteTable.ClientArgs

/-!
# Addresses on their way from one server to the other

The text `a.b.c.d:port` goes through arrays of different sizes: into the file of a secondary
and back after a restart, and into the message OC_UP. At both ends `network_connect` takes it
apart.
-/

namespace RemoteTable
open Tokens Decimal Bytes

/-! ### Texts of addresses -/

def inetAddrstrlen : ℕ := 16
def portLen : ℕ := 6
def portPrim : ℕ := 44444

/-- `struct in_addr` -/
structure InAddr where
  a : UInt8
  b : UInt8
  c : UInt8
  d : UInt8
  deriving DecidableEq

def InAddr.dotted (addr : InAddr) : List UInt8 :=
  digits addr.a.toNat ++ 46 :: (digits addr.b.toNat ++ 46 ::
    (digits addr.c.toNat ++ 46 :: digits addr.d.toNat))

/-- One of the four numbers of an address, in which no zero leads. -/
def octet (ds : List UInt8) : Option UInt8 :=
  if ds ≠ [] ∧ ds.all isDigit ∧ ds.length ≤ 3 ∧ value ds ≤ 255 ∧
      (1 < ds.length → ds.head? ≠ some 48) then some (UInt8.ofNat (value ds))
  else none

def isDot (c : UInt8) : Bool := c = 46
def isColon (c : UInt8) : Bool := c = 58
def isNewline (c : UInt8) : Bool := c = 10

/-- `inet_pton(AF_INET, src, ..)` -/
def inetPton (src : List UInt8) : Option InAddr :=
  match src.splitOnP isDot with
  | [a, b, c, d] => do
    return ⟨← octet a, ← octet b, ← octet c, ← octet d⟩
  | _ => none

/-- The number that `sin_port = htons(n)` stands for. -/
def sinPort (n : ℤ) : UInt16 := UInt16.ofInt n

/-- The address and the port that `network_connect` connects to. -/
def connectTarget (addressPort : CString) : Except Fault (Option (InAddr × UInt16)) := do
  let (token1, buf, pos) := strtok isColon (addressPort.bytes ++ [0]) 0
  let (token2, buf, _) := strtok isNewline buf pos
  let port ← atoiToken buf token2
  match token1 with
  | none => throw .nullDeref
  | some token1 => return (inetPton (stringAt buf token1)).map fun addr => (addr, sinPort port)

/-- The port of `make_server_socket(atoi(argv[1]))`, whose parameter is a `short`. -/
def listeningPort (argv1 : CString) : UInt16 := (Int16.ofInt (atoi argv1.bytes)).toUInt16

lemma length_digits_octet (n : UInt8) : (digits n.toNat).length ≤ 3 :=
  length_digits_le (by have := n.toNat_lt; omega)

lemma length_dotted_le (addr : InAddr) : addr.dotted.length ≤ 15 := by
  have ha := length_digits_octet addr.a
  have hb := length_digits_octet addr.b
  have hc := length_digits_octet addr.c
  have hd := length_digits_octet addr.d
  simp only [InAddr.dotted, List.length_append, List.length_cons]
  omega

lemma numeral_octet (n : UInt8) : Numeral 255 (digits n.toNat) :=
  digits_numeral (by have := n.toNat_lt; omega)

/-- Digits are no delimiters and no terminators. -/
lemma ne_of_isDigit {c x : UInt8} (hc : isDigit c = true) (hx : isDigit x = false) : c ≠ x := by
  rintro rfl
  rw [hc] at hx
  cases hx

lemma mem_dotted {addr : InAddr} {c : UInt8} (h : c ∈ addr.dotted) : isDigit c = true ∨ c = 46 := by
  simp only [InAddr.dotted, List.mem_append, List.mem_cons] at h
  rcases h with h | h | h | h | h | h | h
  · exact Or.inl ((numeral_octet _).digits c h)
  · exact Or.inr h
  · exact Or.inl ((numeral_octet _).digits c h)
  · exact Or.inr h
  · exact Or.inl ((numeral_octet _).digits c h)
  · exact Or.inr h
  · exact Or.inl ((numeral_octet _).digits c h)

lemma dotted_ne {addr : InAddr} {x : UInt8} (hx : isDigit x = false) (hdot : x ≠ 46) :
    ∀ c ∈ addr.dotted, c ≠ x := by
  intro c hc
  rcases mem_dotted hc with hdigit | rfl
  · exact ne_of_isDigit hdigit hx
  · exact hdot.symm

lemma dotted_ne_nil (addr : InAddr) : addr.dotted ≠ [] := by
  simp [InAddr.dotted]

lemma octet_digits (n : UInt8) : octet (digits n.toNat) = some n := by
  have hn := numeral_octet n
  have hall : (digits n.toNat).all isDigit = true := List.all_eq_true.mpr hn.digits
  rw [octet, if_pos ⟨hn.nonempty, hall, length_digits_octet n, hn.le, head_digits_ne⟩, value_digits]
  simp

/-- What `inet_ntop` writes is read back by `inet_pton`. -/
theorem inetPton_dotted (addr : InAddr) : inetPton addr.dotted = some addr := by
  have hfree : ∀ n : UInt8, ∀ c ∈ digits n.toNat, isDot c = false := by
    intro n c hc
    have hne := ne_of_isDigit ((numeral_octet n).digits c hc) (show isDigit 46 = false by decide)
    simpa [isDot] using hne
  have hdot : isDot 46 = true := rfl
  have hsplit : addr.dotted.splitOnP isDot =
      [digits addr.a.toNat, digits addr.b.toNat, digits addr.c.toNat, digits addr.d.toNat] := by
    rw [InAddr.dotted, List.splitOnP_append_cons_of_forall_mem (hfree _) 46 hdot,
      List.splitOnP_append_cons_of_forall_mem (hfree _) 46 hdot,
      List.splitOnP_append_cons_of_forall_mem (hfree _) 46 hdot,
      List.splitOnP_eq_singleton (hfree _)]
  simp only [inetPton, hsplit, octet_digits]
  rfl

/-- A server listens where `network_connect` looks for the port of the same text. -/
lemma listeningPort_eq (argv1 : CString) : listeningPort argv1 = sinPort (atoi argv1.bytes) := by
  rw [listeningPort, sinPort]
  generalize atoi argv1.bytes = n
  apply UInt16.toNat_inj.mp
  have hlt : (n % 65536).toNat < 65536 := by omega
  rw [UInt16.ofInt, UInt16.toNat_ofNat']
  change (BitVec.ofInt 16 n).toNat = _
  rw [BitVec.toNat_ofInt]
  norm_num
  omega

/-- The text of an address with a port. -/
def addressText (addr : InAddr) (port : List UInt8) : List UInt8 := addr.dotted ++ 58 :: port

/-- An address with a port of digits is taken apart where it was put together. -/
theorem connectTarget_addressText {addressPort : CString} {addr : InAddr} {port : List UInt8}
    (h : addressPort.bytes = addressText addr port) (hne : port ≠ [])
    (hport : ∀ c ∈ port, isDigit c = true) :
    connectTarget addressPort = .ok (some (addr, sinPort (atoi port))) := by
  have hholds : Holds (addressPort.bytes ++ [0]) 0 addressPort.bytes :=
    holds_zero addressPort.nulFree []
  rw [h] at hholds
  have haddr : First isColon (addressText addr port) [] addr.dotted (58 :: port) := by
    refine ⟨rfl, by simp, ?_, dotted_ne_nil addr, Or.inr ⟨58, port, rfl, rfl⟩⟩
    intro c hc
    simpa [isColon] using dotted_ne (by decide) (by decide) c hc
  obtain ⟨buf, pos, hcall, htaken⟩ := strtok_of_first hholds haddr
  have hnumber : First isNewline port [] port [] := by
    refine ⟨by simp, by simp, ?_, hne, Or.inl rfl⟩
    intro c hc
    simpa [isNewline] using ne_of_isDigit (hport c hc) (show isDigit 10 = false by decide)
  obtain ⟨buf', pos', hcall', htaken'⟩ := strtok_of_first htaken.restAt hnumber
  have htoken : Holds buf' 0 addr.dotted := by
    apply htaken'.keeps htaken.frontAt
    simpa using htaken.next
  rw [connectTarget, h, hcall]
  simp only [hcall', atoiToken, htaken'.tokenAt.stringAt_eq, ok_bind]
  simp only [List.length_nil, Nat.add_zero, htoken.stringAt_eq, inetPton_dotted, Option.map_some]
  rfl

/-- Without a port `atoi` gets `NULL`. -/
lemma connectTarget_noPort {addressPort : CString} {addr : InAddr}
    (h : addressPort.bytes = addressText addr []) :
    connectTarget addressPort = .error .nullDeref := by
  have hholds : Holds (addressPort.bytes ++ [0]) 0 addressPort.bytes :=
    holds_zero addressPort.nulFree []
  rw [h] at hholds
  have haddr : First isColon (addressText addr []) [] addr.dotted [58] := by
    refine ⟨rfl, by simp, ?_, dotted_ne_nil addr, Or.inr ⟨58, [], rfl, rfl⟩⟩
    intro c hc
    simpa [isColon] using dotted_ne (by decide) (by decide) c hc
  obtain ⟨buf, pos, hcall, htaken⟩ := strtok_of_first hholds haddr
  have hcall' : strtok isNewline buf pos = (none, buf, pos + [].length) :=
    strtok_of_all htaken.restAt (by simp)
  rw [connectTarget, h, hcall]
  simp only [hcall', atoiToken, error_bind]

/-! ### The arrays that the text goes through -/

def colon : CString := .ofBytes [58]

/-- `sprintf(port, "%d", PORT_PRIM)` -/
def primPort : CString := .ofBytes (digits portPrim)

lemma nulFree_of_isDigit {ds : List UInt8} (h : ∀ c ∈ ds, isDigit c = true) :
    ∀ c ∈ ds, c ≠ 0 := fun c hc => ne_of_isDigit (h c hc) (by decide)

/-- `inet_ntop` into an array that has room for every address. -/
def inetNtop (addr : InAddr) : CharBuffer inetAddrstrlen where
  string := ⟨addr.dotted, dotted_ne (by decide) (by decide)⟩
  fits := Nat.lt_succ_of_le (length_dotted_le addr)

/-- `strcat(strcat(buffer, ":"), port)` -/
def appendPort {size : ℕ} (buffer : CharBuffer size) (port : CString) :
    Except Fault (CharBuffer size) := do
  let buffer ← strcat buffer colon
  strcat buffer port

/-- The text that `write_to_file` puts in the file, when it can be opened. -/
def writeToFile (str : CharBuffer inetAddrstrlen) : Except Fault CString := do
  let port ← strcpy portLen primPort
  let str ← appendPort str port.string
  return str.string

/-- What a new client at `peer` makes of the file `secundary`. -/
def acceptPeer (argc status : ℤ) (file : Option CString) (peer : InAddr) :
    Except Fault (Option CString) := do
  let str := inetNtop peer
  if argc = 3 ∧ status = statusSecundary then
    let text ← writeToFile str
    return some text
  else return file

/-- `fscanf(f, "%[^\n]", ..)` into an array of `size` bytes, which stores nothing at an empty
line. -/
def fscanfLine (size : ℕ) (file : CString) : Except Fault (CharBuffer size) :=
  if file.bytes.takeWhile (!isNewline ·) = [] then .error .uninitialised
  else strcpy size (.ofBytes (file.bytes.takeWhile (!isNewline ·)))

/-- `address` in `secundary`, whose file exists. -/
def secundaryAddress (file : CString) : Except Fault (CharBuffer (inetAddrstrlen + portLen)) :=
  fscanfLine (inetAddrstrlen + portLen) file

/-- The argument of `send_connect_ip` in `secundary` -/
def secundaryIpPort (sinAddr : InAddr) (argv1 : CString) :
    Except Fault (CharBuffer inetAddrstrlen) :=
  appendPort (inetNtop sinAddr) argv1

/-- The argument of `send_connect_ip` in `primary` -/
def primaryIpPort (sinAddr : InAddr) :
    Except Fault (CharBuffer (inetAddrstrlen + portLen)) := do
  let port ← strcpy portLen primPort
  let ip ← strcpy (inetAddrstrlen + portLen) (inetNtop sinAddr).string
  appendPort ip port.string

/-- Every `network_connect` succeeds, and its target is noted. -/
def targetNet : Net (List (Except Fault (Option (InAddr × UInt16)))) Unit where
  networkConnect world addressPort := (some (), world ++ [connectTarget addressPort])
  networkSendReceive world _ _ := .ok (none, world)

/-! ### What is claimed of them -/

/-- A port as it is typed: up to five digits. -/
structure PortText where
  text : CString
  digits : ∀ c ∈ text.bytes, isDigit c = true
  short : strlen text ≤ 5

/-- The handler of OC_UP connects to the sender of `ipPort`. -/
def UpReaches (ipPort : CString) (addr : InAddr) (port : UInt16) : Prop :=
  ∀ server : Server Unit, ∃ buffer size msg reply server',
    messageToBuffer (some (buildIpMsg ipPort)) = .ok (buffer, size) ∧
      bufferToMessage buffer size = .ok (some msg) ∧
      handleRequest targetNet server [] msg = .ok (reply, server', [.ok (some (addr, port))])

/-- The file names the peer, and is read back and connected to after a restart. -/
def FileKept (peer : InAddr) : Prop :=
  ∀ file, ∃ text address, acceptPeer 3 statusSecundary file peer = .ok (some text) ∧
    text.bytes = addressText peer (digits portPrim) ∧ secundaryAddress text = .ok address ∧
    address.string = text ∧ connectTarget address.string = .ok (some (peer, sinPort portPrim))

structure KeepsAddresses (peer sinAddr : InAddr) (argv1 : PortText) : Prop where
  file : FileKept peer
  secundary : ∃ ipPort, secundaryIpPort sinAddr argv1.text = .ok ipPort ∧
    UpReaches ipPort.string sinAddr (listeningPort argv1.text)
  primary : ∃ ipPort, primaryIpPort sinAddr = .ok ipPort ∧
    UpReaches ipPort.string sinAddr (sinPort portPrim)

lemma primPort_bytes : primPort.bytes = digits portPrim := by
  rw [primPort, CString.ofBytes]
  apply List.takeWhile_eq_self_iff.mpr
  intro c hc
  simpa using nulFree_of_isDigit (digits_numeral (le_refl portPrim)).digits c hc

lemma strlen_primPort : strlen primPort = 5 := by
  rw [strlen, primPort_bytes, digits]
  simp [portPrim]

lemma atoi_primPort : atoi (digits portPrim) = portPrim := by
  rw [atoi_numeral (digits_numeral (le_refl portPrim)) (by decide), value_digits]

lemma appendPort_of_lt {size : ℕ} (buffer : CharBuffer size) (port : CString)
    (hroom : strlen buffer.string + 1 + strlen port < size) :
    ∃ buffer', appendPort buffer port = .ok buffer' ∧
      buffer'.string.bytes = buffer.string.bytes ++ 58 :: port.bytes := by
  have hcolon : strlen colon = 1 := by decide
  obtain ⟨buffer₁, h₁, hbytes₁⟩ : ∃ buffer', strcat buffer colon = .ok buffer' ∧
      buffer'.string.bytes = buffer.string.bytes ++ colon.bytes := strcat_of_lt (by omega)
  have hlen : strlen buffer₁.string = strlen buffer.string + 1 := by
    rw [strlen, hbytes₁, List.length_append, ← strlen, ← strlen, hcolon]
  obtain ⟨buffer₂, h₂, hbytes₂⟩ : ∃ buffer', strcat buffer₁ port = .ok buffer' ∧
      buffer'.string.bytes = buffer₁.string.bytes ++ port.bytes := strcat_of_lt (by omega)
  refine ⟨buffer₂, ?_, ?_⟩
  · rw [appendPort, h₁, ok_bind, h₂]
  · rw [hbytes₂, hbytes₁, List.append_assoc]
    rfl

lemma appendPort_of_le {size : ℕ} {buffer : CharBuffer size} {port : CString}
    (hroom : size ≤ strlen buffer.string + 1 + strlen port) :
    appendPort buffer port = .error .outOfBounds := by
  have hcolon : strlen colon = 1 := by decide
  rw [appendPort]
  by_cases hfirst : strlen buffer.string + 1 < size
  · obtain ⟨buffer₁, h₁, hbytes₁⟩ : ∃ buffer', strcat buffer colon = .ok buffer' ∧
        buffer'.string.bytes = buffer.string.bytes ++ colon.bytes := strcat_of_lt (by omega)
    have hlen : strlen buffer₁.string = strlen buffer.string + 1 := by
      rw [strlen, hbytes₁, List.length_append, ← strlen, ← strlen, hcolon]
    rw [h₁, ok_bind, strcat_of_le (by omega)]
  · rw [strcat_of_le (by omega), error_bind]

/-- OC_UP carries the text to the other server, which takes it apart. -/
lemma upReaches_iff {ipPort : CString} (hlen : strlen ipPort ≤ 65535) (addr : InAddr)
    (port : UInt16) :
    UpReaches ipPort addr port ↔ connectTarget ipPort = .ok (some (addr, port)) := by
  have hencodable : (buildIpMsg ipPort).Encodable := by
    constructor
    · intro key hkey
      obtain rfl : key = ipPort := by simpa [buildIpMsg, Content.strings] using hkey
      exact hlen
    · rw [strlen] at hlen
      simp only [wireFormat, buildIpMsg, contentFormat, keyField, List.length_append,
        length_beBytes]
      omega
  have hencode := messageToBuffer_eq hencodable.size
  have hdecode := bufferToMessage_wireFormat hencodable
  have hup : ∀ server : Server Unit, handleRequest targetNet server [] (buildIpMsg ipPort) =
      .ok (.message ⟨ocUp, .result (Int32.ofInt stateUp)⟩,
        { server with currentBackup := some (), state := stateUp }, [connectTarget ipPort]) := by
    intro server
    have hstatus : ocUp ≠ ocStatus := by decide
    have hwrite : isWrite ocUp = false := by decide
    have hlocal : ∀ server : Server Unit, ¬server.Forwards ocUp :=
      fun _ => not_forwards_of_read hwrite
    have hinvoke : invoke server.tabela (buildIpMsg ipPort) = .ok (.unset, server.tabela) :=
      invoke_default (by decide) (by decide)
    rw [handleRequest, hinvoke, ok_bind]
    simp only [answerStatus, answerUp, forwardWrite, buildIpMsg, hstatus, if_false, if_true,
      Content.keyMember, ok_bind, pure_eq_ok, targetNet, hlocal, List.nil_append]
  constructor
  · intro h
    obtain ⟨buffer, size, msg, reply, server', hbuffer, hmsg, hcall⟩ := h emptyServer
    rw [hencode] at hbuffer
    simp only [Except.ok.injEq, Prod.mk.injEq] at hbuffer
    rw [← hbuffer.1, ← hbuffer.2, hdecode] at hmsg
    simp only [Except.ok.injEq, Option.some.injEq] at hmsg
    rw [← hmsg, hup] at hcall
    simp only [Except.ok.injEq, Prod.mk.injEq, List.cons.injEq, and_true] at hcall
    exact hcall.2.2
  · intro htarget server
    rw [← htarget]
    exact ⟨_, _, _, _, _, hencode, hdecode, hup server⟩

lemma primPort_digits : ∀ c ∈ digits portPrim, isDigit c = true :=
  (digits_numeral (le_refl portPrim)).digits

lemma primPort_ne_nil : digits portPrim ≠ [] := (digits_numeral (le_refl portPrim)).nonempty

lemma strlen_inetNtop (addr : InAddr) : strlen (inetNtop addr).string = addr.dotted.length := rfl

lemma strcpy_primPort : ∃ port : CharBuffer portLen, strcpy portLen primPort = .ok port ∧
    port.string = primPort := strcpy_of_lt (by rw [strlen_primPort]; decide)

/-- A line that is all of the file. -/
lemma fscanfLine_whole (size : ℕ) {file : CString} (hne : file.bytes ≠ [])
    (hline : ∀ c ∈ file.bytes, isNewline c = false) (hfits : strlen file < size) :
    ∃ address, fscanfLine size file = .ok address ∧ address.string = file := by
  have htake : file.bytes.takeWhile (!isNewline ·) = file.bytes :=
    List.takeWhile_eq_self_iff.mpr (fun c hc => by simp [hline c hc])
  rw [fscanfLine, htake, if_neg hne, ofBytes_of_nulFree]
  exact strcpy_of_lt hfits

/-! ### Addresses that fit -/

theorem fileKept_iff (peer : InAddr) : FileKept peer ↔ peer.dotted.length ≤ 9 := by
  obtain ⟨port, hport, hprim⟩ := strcpy_primPort
  have hlen := strlen_inetNtop peer
  have hprimLen : strlen port.string = 5 := by rw [hprim, strlen_primPort]
  have hrun : ∀ file, acceptPeer 3 statusSecundary file peer =
      (do let text ← writeToFile (inetNtop peer)
          return some text) := by
    intro file
    rw [acceptPeer]
    exact if_pos ⟨rfl, rfl⟩
  have hwrite : writeToFile (inetNtop peer) =
      (do let str ← appendPort (inetNtop peer) port.string
          return str.string) := by
    rw [writeToFile, hport, ok_bind]
  constructor
  · intro h
    by_contra hlong
    obtain ⟨text, address, htext, -⟩ := h none
    have hfault : appendPort (inetNtop peer) port.string = .error .outOfBounds :=
      appendPort_of_le (by rw [hlen, hprimLen, inetAddrstrlen]; omega)
    rw [hrun, hwrite, hfault, error_bind, error_bind] at htext
    cases htext
  · intro hshort file
    obtain ⟨str, hstr, hbytes⟩ := appendPort_of_lt (inetNtop peer) port.string
      (by rw [hlen, hprimLen, inetAddrstrlen]; omega)
    have htext : str.string.bytes = addressText peer (digits portPrim) := by
      rw [hbytes, hprim, primPort_bytes]
      rfl
    have hline : ∀ c ∈ str.string.bytes, isNewline c = false := by
      intro c hc
      rw [htext, addressText, List.mem_append, List.mem_cons] at hc
      rcases hc with hc | rfl | hc
      · simpa [isNewline] using dotted_ne (x := 10) (by decide) (by decide) c hc
      · rfl
      · simpa [isNewline] using ne_of_isDigit (primPort_digits c hc)
          (show isDigit 10 = false by decide)
    have hne : str.string.bytes ≠ [] := by
      rw [htext, addressText]
      simp
    obtain ⟨address, haddress, hsame⟩ := fscanfLine_whole (inetAddrstrlen + portLen) hne
      hline (lt_of_lt_of_le str.fits (Nat.le_add_right _ _))
    refine ⟨str.string, address, ?_, htext, haddress, hsame, ?_⟩
    · rw [hrun, hwrite, hstr]
      rfl
    · rw [hsame, connectTarget_addressText htext primPort_ne_nil primPort_digits, atoi_primPort]

theorem secundary_iff (sinAddr : InAddr) (argv1 : PortText) :
    (∃ ipPort, secundaryIpPort sinAddr argv1.text = .ok ipPort ∧
      UpReaches ipPort.string sinAddr (listeningPort argv1.text)) ↔
      sinAddr.dotted.length + strlen argv1.text ≤ 14 ∧ argv1.text.bytes ≠ [] := by
  have hlen := strlen_inetNtop sinAddr
  rw [listeningPort_eq, secundaryIpPort]
  by_cases hroom : sinAddr.dotted.length + strlen argv1.text ≤ 14
  · obtain ⟨ip, hip, hbytes⟩ := appendPort_of_lt (inetNtop sinAddr) argv1.text
      (by rw [hlen, inetAddrstrlen]; omega)
    have htext : ip.string.bytes = addressText sinAddr argv1.text.bytes := hbytes
    have hshort : strlen ip.string ≤ 65535 := le_trans ip.fits.le (by decide)
    have hup := upReaches_iff hshort sinAddr (sinPort (atoi argv1.text.bytes))
    rw [hip]
    constructor
    · rintro ⟨ipPort, hsame, hreaches⟩
      cases hsame
      refine ⟨hroom, fun hnil => ?_⟩
      rw [hnil] at htext
      rw [hup, connectTarget_noPort htext] at hreaches
      cases hreaches
    · rintro ⟨-, hne⟩
      exact ⟨ip, rfl, hup.mpr (connectTarget_addressText htext hne argv1.digits)⟩
  · have hfault : appendPort (inetNtop sinAddr) argv1.text = .error .outOfBounds :=
      appendPort_of_le (by rw [hlen, inetAddrstrlen]; omega)
    refine iff_of_false ?_ (fun h => hroom h.1)
    rintro ⟨ipPort, hrun, -⟩
    rw [hfault] at hrun
    cases hrun

theorem primary_upReaches (sinAddr : InAddr) : ∃ ipPort, primaryIpPort sinAddr = .ok ipPort ∧
    UpReaches ipPort.string sinAddr (sinPort portPrim) := by
  obtain ⟨port, hport, hprim⟩ := strcpy_primPort
  have hprimLen : strlen port.string = 5 := by rw [hprim, strlen_primPort]
  have hle := length_dotted_le sinAddr
  obtain ⟨ip, hip, hsame⟩ : ∃ ip : CharBuffer (inetAddrstrlen + portLen),
      strcpy (inetAddrstrlen + portLen) (inetNtop sinAddr).string = .ok ip ∧
        ip.string = (inetNtop sinAddr).string :=
    strcpy_of_lt (lt_of_lt_of_le (inetNtop sinAddr).fits (Nat.le_add_right _ _))
  have hlen : strlen ip.string = sinAddr.dotted.length := by rw [hsame, strlen_inetNtop]
  obtain ⟨ipPort, hrun, hbytes⟩ := appendPort_of_lt ip port.string
    (by rw [hlen, hprimLen, inetAddrstrlen, portLen]; omega)
  have htext : ipPort.string.bytes = addressText sinAddr (digits portPrim) := by
    rw [hbytes, hsame, hprim, primPort_bytes]
    rfl
  refine ⟨ipPort, ?_, ?_⟩
  · rw [primaryIpPort, hport, ok_bind, hip, ok_bind, hrun]
  · rw [upReaches_iff (le_trans ipPort.fits.le (by decide)),
      connectTarget_addressText htext primPort_ne_nil primPort_digits, atoi_primPort]

/-- The exact addresses and ports that survive the way. -/
theorem keepsAddresses_iff (peer sinAddr : InAddr) (argv1 : PortText) :
    KeepsAddresses peer sinAddr argv1 ↔ peer.dotted.length ≤ 9 ∧
      sinAddr.dotted.length + strlen argv1.text ≤ 14 ∧ argv1.text.bytes ≠ [] := by
  rw [← fileKept_iff, ← secundary_iff]
  constructor
  · exact fun h => ⟨h.file, h.secundary⟩
  · exact fun h => ⟨h.1, h.2, primary_upReaches sinAddr⟩

/-- `192.168.1.1` needs seventeen bytes with its port. -/
theorem not_keepsAddresses_long : ¬∀ (peer sinAddr : InAddr) (argv1 : PortText),
    KeepsAddresses peer sinAddr argv1 := by
  intro h
  let peer : InAddr := ⟨192, 168, 1, 1⟩
  let argv1 : PortText :=
    ⟨.ofBytes [52, 52, 52, 52, 53], List.all_eq_true.mp (by decide), by decide⟩
  have hlen : peer.dotted.length = 11 := by
    simp [peer, InAddr.dotted, digits]
  have hkept := (fileKept_iff peer).mp (h peer peer argv1).file
  omega

end RemoteTable

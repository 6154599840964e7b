import OciJanus.Verified.GoStrings
import OciJanus.Verified.IpAddr

/-!
# The address that failures are counted for

Behind a trusted proxy it is the *leftmost* public address of `X-Forwarded-For`.
-/

namespace OciJanus.Auth.RemoteIP

open Verified.GoStrings Verified.IpAddr

def parseOctet (s : String) : Option Nat :=
  if s.toList.length ≤ 3 ∧ (s.toList.head? = some '0' → s = "0") then
    (parseDigits s.toList).filter (· ≤ 255)
  else none

structure Net where
  parseIPv6 : String → Option (BitVec 128)
  stringIPv6 : BitVec 128 → String

section
variable (net : Net) (trustedProxyCIDRs : List Cidr)

def parseIP (s : String) : Option Addr :=
  match s.toList.find? fun c => c == '.' || c == ':' with
  | some '.' =>
    match (splitOn '.' s).map parseOctet with
    | [some a, some b, some c, some d] => some (.v4 (octets a b c d))
    | _ => none
  | some _ => (net.parseIPv6 s).map .v6
  | none => none

def string (x : Addr) : String :=
  match x.unmap with
  | .v4 a =>
    let octet (i : Nat) := Nat.repr ((a >>> (8 * i)).toNat % 256)
    octet 3 ++ "." ++ octet 2 ++ "." ++ octet 1 ++ "." ++ octet 0
  | .v6 a => net.stringIPv6 a

def isPrivate (x : Addr) : Bool := x.isPrivateUse || x.isUniqueLocal

def isTrustedProxy (ip : Addr) : Bool := trustedProxyCIDRs.any (·.contains ip)

def usable (part : String) : Option Addr :=
  (parseIP net (trimSpace part)).filter fun ip => !isPrivate ip && !ip.isLoopback

def remoteIP (peer : String) (xForwardedFor : Option String) : String :=
  let fromHeader : Option Addr := do
    let peerIP ← parseIP net peer
    let xff ← xForwardedFor
    if isTrustedProxy trustedProxyCIDRs peerIP ∧ xff ≠ "" then
      (splitOn ',' xff).findSome? (usable net)
    else none
  (fromHeader.map (string net)).getD peer

end

def forwarded (v : Option String) (c : String) : String :=
  match v with
  | none => c
  | some v => v ++ ", " ++ c

structure Reads (net : Net) (c : Addr) : Prop where
  parses : parseIP net (string net c) = some c.unmap
  plain : ∀ x ∈ (string net c).toList, isSpace x = false ∧ x ≠ ','

abbrev Public (c : Addr) : Prop := isPrivate c = false ∧ c.isLoopback = false

variable {net : Net} {c : Addr}

theorem trimSpace_append {p s : String} (hp : ∀ x ∈ p.toList, isSpace x = true)
    (hs : ∀ x ∈ s.toList, isSpace x = false) : trimSpace (p ++ s) = s := by
  have hdrop : ∀ l : List Char, (∀ x ∈ l, isSpace x = false) → l.dropWhile isSpace = l := by
    intro l hl
    cases l with
    | nil => rfl
    | cons x l => simp [hl x]
  unfold trimSpace
  rw [String.toList_append, List.dropWhile_append_of_pos hp, hdrop _ hs,
    hdrop _ (by simpa using hs), List.reverse_reverse, String.ofList_toList]

theorem usable_append {p : String} (hp : ∀ x ∈ p.toList, isSpace x = true) (hreads : Reads net c)
    (hpublic : Public c) : usable net (p ++ string net c) = some c.unmap := by
  have hprivate : isPrivate c.unmap = isPrivate c := by
    simp only [isPrivate, Addr.isPrivateUse, Addr.isUniqueLocal, Addr.unmap_unmap]
  have hloop : c.unmap.isLoopback = c.isLoopback := by
    simp only [Addr.isLoopback, Addr.unmap_unmap]
  rw [usable, trimSpace_append hp fun x hx => (hreads.plain x hx).1, hreads.parses]
  simp [hprivate, hloop, hpublic.1, hpublic.2]

/-- The first part of the client's own header that `remoteIP` goes by. -/
def chosen (net : Net) (v : Option String) : Option Addr :=
  v.bind fun text => (splitOn ',' text).findSome? (usable net)

theorem findSome_forwarded (hreads : Reads net c) (hpublic : Public c) (v : Option String) :
    (splitOn ',' (forwarded v (string net c))).findSome? (usable net) =
      some ((chosen net v).getD c.unmap) := by
  have hcomma : ∀ l : List Char, ',' ∉ l → l.splitOn ',' = [l] := fun l hl =>
    List.splitOnP_eq_singleton fun x hx => by
      have hne : x ≠ ',' := fun h => hl (h ▸ hx)
      simpa using hne
  have hplain : ',' ∉ (string net c).toList := fun h => (hreads.plain _ h).2 rfl
  cases v with
  | none =>
    have husable := usable_append (p := "") (by simp) hreads hpublic
    rw [String.empty_append] at husable
    simp [forwarded, chosen, splitOn, hcomma _ hplain, husable]
  | some text =>
    have hsplit : splitOn ',' (text ++ ", " ++ string net c) =
        splitOn ',' text ++ [" " ++ string net c] := by
      have hlist : (text ++ ", " ++ string net c).toList =
          text.toList ++ ',' :: (" " ++ string net c).toList := by
        simp [String.toList_append]
      rw [splitOn, hlist, List.splitOn_append_cons_self,
        hcomma (" " ++ string net c).toList (by simpa [String.toList_append] using hplain)]
      simp [splitOn]
    rw [forwarded, hsplit, List.findSome?_append, chosen, Option.bind_some]
    cases (splitOn ',' text).findSome? (usable net) with
    | none => simp [usable_append (p := " ") (by simp; rfl) hreads hpublic]
    | some ip => rfl

/-- **The client's own address** if and only if the first part it sends that `remoteIP` goes by, if
there is one, is that address. -/
theorem remoteIP_forwarded_iff (net : Net) (cidrs : List Cidr) (peer : String) (proxy : Addr)
    (hpeer : parseIP net peer = some proxy) (htrusted : isTrustedProxy cidrs proxy = true)
    (c : Addr) (hpublic : Public c) (hreads : Reads net c) (v : Option String) :
    remoteIP net cidrs peer (some (forwarded v (string net c))) = string net c ↔
      ∀ ip ∈ chosen net v, string net ip = string net c := by
  have hfound := findSome_forwarded hreads hpublic v
  have hne : forwarded v (string net c) ≠ "" := by
    intro hempty
    rw [hempty] at hfound
    exact absurd hfound (by simp [splitOn, usable, trimSpace, parseIP])
  have hunmap : string net c.unmap = string net c := by
    simp only [string, Addr.unmap_unmap]
  unfold remoteIP
  cases hchosen : chosen net v with
  | none => simp [hpeer, htrusted, hne, hfound, hchosen, hunmap]
  | some ip => simp [hpeer, htrusted, hne, hfound, hchosen]

def ipv4Only : Net := ⟨fun _ => none, fun _ => ""⟩

def client : Addr := .v4 (octets 203 0 113 7)

theorem reads_client : Reads ipv4Only client := by
  have htext : string ipv4Only client = "203.0.113.7" := by decide
  have hall : "203.0.113.7".toList.all (fun x => !isSpace x && x != ',') = true := by decide
  refine ⟨by decide, fun x hx => ?_⟩
  rw [htext] at hx
  simpa using List.all_eq_true.mp hall x hx

theorem private_header_ignored :
    remoteIP ipv4Only [.v4 (octets 10 0 0 0) 8] "10.0.0.1" (some "192.168.1.1, 203.0.113.7") =
      "203.0.113.7" :=
  (remoteIP_forwarded_iff ipv4Only [.v4 (octets 10 0 0 0) 8] "10.0.0.1" (.v4 (octets 10 0 0 1))
    (by decide) (by decide) client (by decide) reads_client (some "192.168.1.1")).mpr (by decide)

theorem client_chooses_address :
    Public client ∧ string ipv4Only client = "203.0.113.7" ∧
      remoteIP ipv4Only [.v4 (octets 10 0 0 0) 8] "10.0.0.1"
        (some (forwarded (some "198.51.100.1") (string ipv4Only client))) = "198.51.100.1" := by
  decide

end OciJanus.Auth.RemoteIP

import DnsClient.Address
import DnsClient.Duration
import DnsClient.Name.Text
import DnsClient.Text.Blank
import DnsClient.Text.Utf8

/-!
The configuration of a stub resolver, and the text format of `/etc/resolv.conf`.

A file is read line by line, each line changing the configuration by itself. Reading stops at the
first bad line, and what was set up to there stays: the lines before it, and the parts of the line
itself that take effect before its fault.
-/

namespace DnsClient

structure ResolvConf where
  servers : List SocketAddress := []
  search : List Name := []
  /-- The number of dots from which on a host name is first tried as it is. -/
  ndots : Nat := 1
  timeout : Duration := Duration.ofSecs 5
  /-- How many times to go through the servers. -/
  attempts : Nat := 2
  useVc : Bool := false
  recurse : Bool := true
  /-- Start each query at another server. -/
  rotate : Bool := false
  useEdns0 : Bool := false

inductive ConfError where
  | parse
  /-- The text could not be read, or a host name could not be looked up. -/
  | io
deriving DecidableEq, Repr

def ConfError.parseMessage : String := "error parsing configuration"

namespace ResolvConf

def port : UInt16 := 53

/-- The configuration made fit for use: with a server, and with an attempt. -/
def finalize (c : ResolvConf) : ResolvConf :=
  { c with
    servers := if c.servers = [] then [⟨IpAddress.localhost, port⟩] else c.servers
    attempts := if c.attempts = 0 then 1 else c.attempts }

/-! ### Reading -/

/-- A reading of something into a configuration. When it fails, what it changed before stays. -/
def Reading := ResolvConf → Except ConfError Unit × ResolvConf

def noMore (rest : List (List Char)) (c : ResolvConf) : Except ConfError Unit × ResolvConf :=
  (if rest = [] then .ok () else .error .parse, c)

/-- Adds a server. Host names are not looked up, so only addresses are good. -/
def readNameserver : List (List Char) → Reading
  | [], c => (.error .parse, c)
  | w :: ws, c =>
    match IpAddress.ofText? w with
    | some ip => noMore ws { c with servers := c.servers ++ [⟨ip, port⟩] }
    | none => (.error .io, c)

def readName? (w : List Char) : Option Name := (Name.ofText (Utf8.encode w)).toOption

def readDomain : List (List Char) → Reading
  | [], c => (.error .parse, c)
  | w :: ws, c =>
    match readName? w with
    | some n => noMore ws { c with search := [n] }
    | none => (.error .parse, c)

/-- Replaces the domains to search, unless one of them is bad. -/
def readSearch (ws : List (List Char)) : Reading := fun c =>
  match ws.mapM readName? with
  | some ns => (.ok (), { c with search := ns })
  | none => (.error .parse, c)

def maxNumber : Nat := 0xffff_ffff_ffff_ffff

/-- A number in decimal digits, which may follow a plus sign. -/
def readNumber? (s : List Char) : Option Nat :=
  readDecimal? maxNumber (if s.head? = some '+' then s.tail else s)

/-- An option word: its name, and the number behind the first colon if there is a colon. -/
def readOption? (w : List Char) : Option (List Char × Option Nat) :=
  match splitFirst ':' w with
  | none => some (w, none)
  | some (name, arg) => (readNumber? arg).map fun n => (name, some n)

/-- The effect of an option. Options that are not known have none. -/
def setOption (c : ResolvConf) (name : List Char) (arg : Option Nat) : ResolvConf :=
  match String.ofList name, arg with
  | "ndots", some n => { c with ndots := n }
  | "timeout", some n => { c with timeout := Duration.ofSecs n }
  | "attempts", some n => { c with attempts := n }
  | "rotate", none => { c with rotate := true }
  | "edns0", none => { c with useEdns0 := true }
  | "use-vc", none => { c with useVc := true }
  | _, _ => c

/-- Reads options up to the first bad one. -/
def readOptions : List (List Char) → Reading
  | [], c => (.ok (), c)
  | w :: ws, c =>
    match readOption? w with
    | some (name, arg) => readOptions ws (c.setOption name arg)
    | none => (.error .parse, c)

def readWords : List (List Char) → Reading
  | [], c => (.ok (), c)
  | keyword :: ws, c =>
    match String.ofList keyword with
    | "nameserver" => readNameserver ws c
    | "domain" => readDomain ws c
    | "search" => readSearch ws c
    | "sortlist" => (.ok (), c)
    | "options" => readOptions ws c
    | _ => (.error .parse, c)

def isComment (line : List Char) : Bool :=
  line.head? = some ';' ∨ line.head? = some '#'

/-- Reads a line. Blank lines and comments say nothing, but have to be well formed text. -/
def readLine (line : Octets) : Reading := fun c =>
  match Utf8.decode line with
  | none => (.error .io, c)
  | some s => if isComment s then (.ok (), c) else readWords (words s) c

/-- Reads lines up to the first bad one. -/
def readLines : List Octets → Reading
  | [], c => (.ok (), c)
  | l :: ls, c =>
    match readLine l c with
    | (.ok (), c) => readLines ls c
    | (.error e, c) => (.error e, c)

def newline : UInt8 := 0x0A

def parse (o : Octets) : Reading := readLines (splitOn newline o)

/-- Reads a configuration file, given its contents if there is such a file. -/
def parseFile : Option Octets → Reading
  | none, c => (.error .io, c)
  | some o, c => parse o c

/-! ### Printing -/

def line (ws : List (List Char)) : List Char := joinWith ' ' ws ++ ['\n']

def nameText (n : Name) : List Char := n.text.map fun a => Char.ofNat a.toNat

/-- A server, with its port if that is not the usual one. -/
def serverText (a : SocketAddress) : List Char := if a.port = port then a.ip.text else a.text

def serverLines (servers : List SocketAddress) : List Char :=
  servers.flatMap fun a => line ["nameserver".toList, serverText a]

def searchLine : List Name → List Char
  | [] => []
  | [n] => line ["domain".toList, nameText n]
  | ns => line ("search".toList :: ns.map nameText)

def numberOption (name : String) (n : Nat) : List Char :=
  name.toList ++ ':' :: Nat.toDigits 10 n

/-- The words for all options that do not have their usual value. -/
def optionWords (c : ResolvConf) : List (List Char) :=
  (if c.ndots = 1 then [] else [numberOption "ndots" c.ndots]) ++
  (if c.timeout = Duration.ofSecs 5 then [] else [numberOption "timeout" c.timeout.toSecs]) ++
  (if c.attempts = 2 then [] else [numberOption "attempts" c.attempts]) ++
  (if c.useVc then ["use-vc".toList] else []) ++
  (if c.rotate then ["rotate".toList] else []) ++
  (if c.useEdns0 then ["edns0".toList] else [])

def optionsLine (ws : List (List Char)) : List Char :=
  if ws = [] then [] else line ("options".toList :: ws)

def text (c : ResolvConf) : List Char :=
  serverLines c.servers ++ searchLine c.search ++ optionsLine c.optionWords

def display (c : ResolvConf) : String := String.ofList c.text

end ResolvConf

end DnsClient

import StaticHttp.Crypto.Pem
import StaticHttp.Crypto.Certificate
import StaticHttp.Crypto.PrivateKey
import StaticHttp.Crypto.Edwards
import StaticHttp.Files.Tree

/-!
# The TLS profile

The server offers TLS 1.2 and newer with six ECDHE suites with AEAD ciphers, and announces
`http/1.1`. Its certificate and key come from PEM files: the certificate file's first
`CERTIFICATE` block is the leaf, the key file's first block of type `PRIVATE KEY`, or of a type
ending in ` PRIVATE KEY`, is the key. The leaf is read first, then the key, and the key must
belong to the leaf's public key. A file without the block it needs is reported with the types
of the blocks it has.
-/

namespace StaticHttp

namespace Transport

/-- A TLS server profile: its certificate chains, lowest version, suites and protocols. -/
structure Profile where
  certificates : Nat
  minVersion : Nat
  cipherSuites : List Nat
  nextProtos : List String
  deriving DecidableEq, Repr

/-- The profile the server uses for one certificate. -/
def Profile.server : Profile :=
  ⟨1, 0x0303, [0xc02c, 0xc030, 0xcca9, 0xcca8, 0xc02b, 0xc02f], ["http/1.1"]⟩

/-- Why a certificate and key could not be used. -/
inductive TlsError where
  | noCertificateName
  | noKeyName
  | load (cert key cause : String)
  deriving DecidableEq, Repr

/-- The text of a TLS setup failure. -/
def TlsError.message : TlsError → String
  | .noCertificateName => "ssl certificate filename not specified"
  | .noKeyName => "ssl key filename not specified"
  | .load c k cause => "failed to load certificate " ++ c ++ " with key " ++ k ++ ": " ++ cause

/-- The text of a type of PEM block. -/
def typeText (t : Bytes) : String := Utf8.lossy t

/-- Whether a PEM block holds a private key: its type is `PRIVATE KEY` or ends in
` PRIVATE KEY`. -/
def isKeyBlock (b : Crypto.PemBlock) : Bool :=
  let t := typeText b.type
  t == "PRIVATE KEY" || t.endsWith " PRIVATE KEY"

/-- The certificate a certificate file's blocks give: the first `CERTIFICATE` block. -/
def leafCertificate (blocks : List Crypto.PemBlock) : Except String Bytes :=
  match blocks.find? (typeText ·.type == "CERTIFICATE") with
  | some b => .ok b.bytes
  | none =>
    let skipped := blocks.map (typeText ·.type)
    if skipped.isEmpty then .error "tls: failed to find any PEM data in certificate input"
    else if skipped.length == 1 && skipped.all (·.endsWith "PRIVATE KEY") then
      .error "tls: failed to find certificate PEM data in certificate input, but did find a private key; PEM inputs may have been switched"
    else
      .error ("tls: failed to find \"CERTIFICATE\" PEM block in certificate input after skipping PEM blocks of the following types: [" ++
        " ".intercalate skipped ++ "]")

/-- The key a key file's blocks give: the first block that holds a private key. -/
def keyBlock (blocks : List Crypto.PemBlock) : Except String Bytes :=
  match blocks.find? isKeyBlock with
  | some b => .ok b.bytes
  | none =>
    let skipped := blocks.map (typeText ·.type)
    if skipped.isEmpty then .error "tls: failed to find any PEM data in key input"
    else if skipped == ["CERTIFICATE"] then
      .error "tls: found a certificate rather than a key in the PEM for the private key"
    else
      .error ("tls: failed to find PEM block with type ending in \"PRIVATE KEY\" in key input after skipping PEM blocks of the following types: [" ++
        " ".intercalate skipped ++ "]")

/-- Checks that a private key belongs to a public key: the same RSA modulus and exponent, the
point the elliptic-curve number gives, the Ed25519 key the seed gives, or the ML-DSA key the
seed gives under the same parameter set. -/
def keysMatch : Crypto.PublicKey → Crypto.PrivateKey → Except String Unit
  | .other, _ => .error "tls: unknown public key algorithm"
  | .rsa n e, .rsa m f =>
    if n == m && e == f then .ok () else .error "tls: private key does not match public key"
  | .ec _ x y, .ec curve k =>
    if curve.scalarBase k == (x, y) then .ok () else .error "tls: private key does not match public key"
  | .ed25519 pub, .ed25519 seed =>
    if Crypto.Edwards.publicKey seed == pub then .ok () else .error "tls: private key does not match public key"
  | .mlDsa p pub, .mlDsa q seed =>
    if p == q && Crypto.MlDsa.publicKey q seed == pub then .ok ()
    else .error "tls: private key does not match public key"
  | _, _ => .error "tls: private key type does not match public key type"

/-- Checks that a certificate file's and a key file's PEM text make a usable pair. The
certificate is read before the key. -/
def checkKeyPair (certPem keyPem : Bytes) : Except String Unit := do
  let leaf ← leafCertificate (Crypto.PemBlock.allOf certPem)
  let key ← keyBlock (Crypto.PemBlock.allOf keyPem)
  let pub ← Crypto.Certificate.parse leaf
  let priv ← Crypto.PrivateKey.parse key
  keysMatch pub priv

/-- The server profile for a certificate and key file of a tree. -/
def loadProfile (t : Files.Tree) (certFile keyFile : String) : Except TlsError Profile := do
  if certFile.isEmpty then throw .noCertificateName
  if keyFile.isEmpty then throw .noKeyName
  let certPem ← match t.readFile certFile with
    | .ok b => pure b
    | .error e => throw (.load certFile keyFile e.message)
  let keyPem ← match t.readFile keyFile with
    | .ok b => pure b
    | .error e => throw (.load certFile keyFile e.message)
  match checkKeyPair certPem keyPem with
  | .ok () => pure Profile.server
  | .error cause => throw (.load certFile keyFile cause)

end Transport

end StaticHttp

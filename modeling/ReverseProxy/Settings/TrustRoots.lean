import ReverseProxy.Text.Bytes

/-!
# Trust roots

The certificates of those who are trusted to vouch for backends stand in a file in PEM.  How such a
file is read and which certificates can be trusted is the business of a `TrustLibrary`;
`TrustRoots.load` is what is done with its answers.
-/

namespace ReverseProxy.Settings

/-- What is stored under each path, or the text of the failure to read it. -/
abbrev Files := String → Except String Bytes

/-- What is taken from elsewhere to read certificates and to trust them. -/
structure TrustLibrary where
  /-- The certificates in the contents of a file, or the text of the failure to read them. -/
  certificates : Bytes → Except String (List Bytes)
  /-- Trusts a certificate, or refuses it with a text that says why. -/
  trust : Bytes → Except String Unit

/-- The certificates that are trusted, in the order of the file. -/
structure TrustRoots where
  certificates : List Bytes
deriving DecidableEq, Repr

/-- Why there are no trust roots. -/
inductive TrustFailure where
  | unreadable (path text : String)
  | noCertificate (path : String)
  /-- A certificate cannot be trusted. -/
  | refused (text : String)
deriving DecidableEq, Repr

/-- The wording of a failure. -/
def TrustFailure.message : TrustFailure → String
  | .unreadable path text => "failed to read " ++ path ++ ": " ++ text
  | .noCertificate path => "no certificate found in " ++ path
  | .refused text => "invalid TLS configuration: " ++ text

namespace TrustLibrary

/-- The library of a program that comes without one finds no certificates. -/
def absent : TrustLibrary where
  certificates _ := .ok []
  trust _ := .ok ()

/-- Trusts certificates one after another, up to the first that is refused. -/
def trustAll (library : TrustLibrary) : List Bytes → Except TrustFailure Unit
  | [] => .ok ()
  | certificate :: certificates =>
      match library.trust certificate with
      | .error text => .error (.refused text)
      | .ok () => library.trustAll certificates

theorem trustAll_eq_ok_iff {library : TrustLibrary} {certificates : List Bytes} :
    library.trustAll certificates = .ok () ↔ ∀ c ∈ certificates, library.trust c = .ok () := by
  induction certificates with
  | nil => simp [trustAll]
  | cons c certificates ih =>
    rw [trustAll, List.forall_mem_cons, ← ih]
    cases library.trust c <;> simp

end TrustLibrary

/-- Reads the certificates from the file of a path: one at least, and all of them are trusted. -/
def TrustRoots.load (library : TrustLibrary) (files : Files) (path : String) :
    Except TrustFailure TrustRoots :=
  match files path with
  | .error text => .error (.unreadable path text)
  | .ok contents =>
      match library.certificates contents with
      | .error text => .error (.unreadable path text)
      | .ok [] => .error (.noCertificate path)
      | .ok certificates => (library.trustAll certificates).map fun () => { certificates }

/-- Trust roots are loaded from `path` exactly if there is a file, `library` finds certificates in
it, and it trusts each of them. -/
theorem TrustRoots.load_eq_ok_iff {library : TrustLibrary} {files : Files} {path : String}
    {roots : TrustRoots} : load library files path = .ok roots ↔
      ∃ contents, files path = .ok contents ∧
        library.certificates contents = .ok roots.certificates ∧ roots.certificates ≠ [] ∧
        ∀ c ∈ roots.certificates, library.trust c = .ok () := by
  obtain ⟨trusted⟩ := roots
  simp only [← TrustLibrary.trustAll_eq_ok_iff]
  unfold load
  cases files path with
  | error text => simp
  | ok contents =>
    rcases hfound : library.certificates contents with text | _ | ⟨c, certificates⟩
    · simp [hfound]
    · simp +contextual [hfound, eq_comm]
    · by_cases hall : c :: certificates = trusted
      · subst hall
        cases htrust : library.trustAll (c :: certificates) <;> simp [hfound, htrust, Except.map]
      · cases htrust : library.trustAll (c :: certificates) <;>
          simp [hfound, htrust, hall, Except.map]

end ReverseProxy.Settings

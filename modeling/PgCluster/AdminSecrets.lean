/-!
# A database's secrets

`pgcluster-admin/src/secrets.rs` and the functions of `reconciler.rs` that
change what a database's nodes share: its CA and its internal passwords.
Sealing at rest is left out; random material is an argument.
-/

namespace PgCluster.Admin

/-- Passwords about to replace the current ones, during a rotation. -/
structure NextPasswords where
  superuserPassword : String
  replicationPassword : String
  authPassword : String
  apiKey : String
deriving DecidableEq

structure ProxyCertificate where
  certPem : String
  keyPem : String
deriving DecidableEq

/-- Per-database material, shared by every node. -/
structure DatabaseSecrets where
  caCertPem : String
  caKeyPem : String
  superuserPassword : String
  replicationPassword : String
  authPassword : String
  apiKey : String
  backupKey : String
  sourceBackupKey : Option String
  /-- The CA being replaced, trusted alongside the new one. -/
  previousCaCertPem : Option String
  next : Option NextPasswords
  proxyCertificate : Option ProxyCertificate
deriving DecidableEq

/-- What the random number generator gives one run of a step. -/
structure RandomMaterial where
  caCertPem : String
  caKeyPem : String
  passwords : NextPasswords
  backupKey : String
deriving DecidableEq

namespace DatabaseSecrets

/-- Every CA a node should trust: during a rotation, the old one as well. -/
def caBundle (s : DatabaseSecrets) : List String :=
  s.caCertPem :: s.previousCaCertPem.toList

/-- `place`: a database starts with a CA and passwords of its own. -/
def generate (g : RandomMaterial) (sourceBackupKey : Option String) : DatabaseSecrets where
  caCertPem := g.caCertPem
  caKeyPem := g.caKeyPem
  superuserPassword := g.passwords.superuserPassword
  replicationPassword := g.passwords.replicationPassword
  authPassword := g.passwords.authPassword
  apiKey := g.passwords.apiKey
  backupKey := g.backupKey
  sourceBackupKey := sourceBackupKey
  previousCaCertPem := none
  next := none
  proxyCertificate := none

/-- `place_replica`: the source's CA and passwords, which the replica's data
holds, and a backup key of its own. -/
def forReplica (g : RandomMaterial) (source : DatabaseSecrets) : DatabaseSecrets :=
  { source with
    backupKey := g.backupKey
    sourceBackupKey := none
    previousCaCertPem := none
    next := none
    proxyCertificate := none }

/-- `ca_trust_both`: a new CA alongside the old one. -/
def caTrustBoth (g : RandomMaterial) (s : DatabaseSecrets) : DatabaseSecrets :=
  { s with
    previousCaCertPem := some s.caCertPem
    caCertPem := g.caCertPem
    caKeyPem := g.caKeyPem }

/-- `ca_trust_new`: stop trusting the old one. -/
def caTrustNew (s : DatabaseSecrets) : DatabaseSecrets :=
  { s with previousCaCertPem := none }

/-- `passwords_offer`: the passwords to come, whatever was on offer before. -/
def passwordsOffer (g : RandomMaterial) (s : DatabaseSecrets) : DatabaseSecrets :=
  { s with next := some g.passwords }

/-- `passwords_commit`: the new passwords become the current ones. -/
def passwordsCommit (s : DatabaseSecrets) : Option DatabaseSecrets :=
  s.next.map fun next =>
    { s with
      next := none
      superuserPassword := next.superuserPassword
      replicationPassword := next.replicationPassword
      authPassword := next.authPassword
      apiKey := next.apiKey }

/-- What a replica's data shares with its source's: the CA certificate and
the three passwords of managed roles. -/
def shared (s : DatabaseSecrets) : String × String × String × String :=
  (s.caCertPem, s.superuserPassword, s.replicationPassword, s.authPassword)

end DatabaseSecrets

end PgCluster.Admin

import AnonyMus.Lib.RatchetOnce
import AnonyMus.Lib.RatchetFresh
import AnonyMus.Lib.EState
import AnonyMus.Lib.Dict
import AnonyMus.Rust.Delivery
import AnonyMus.Rust.Rollback
import AnonyMus.Rust.SkippedKeys
import AnonyMus.Rust.Replay
import AnonyMus.Rust.X3dh
import AnonyMus.Rust.Pqxdh
import AnonyMus.Rust.Established
import AnonyMus.Rust.PqRatchet
import AnonyMus.Rust.PqPeriod
import AnonyMus.Rust.Padding
import AnonyMus.Python.KeySoundness
import AnonyMus.Python.Atomicity
import AnonyMus.Python.Persistence
import AnonyMus.Python.Conversation
import AnonyMus.Python.MlsForward
import AnonyMus.Python.DeviceSync
import AnonyMus.Python.Migrations
import AnonyMus.Python.PrekeyRefill
import AnonyMus.Web.Calls
import AnonyMus.Web.Numbers
import AnonyMus.Web.Interop
import AnonyMus.Android.Interop
import AnonyMus.Android.Outsider
import AnonyMus.Android.MayPush
import AnonyMus.Android.Shown
import AnonyMus.Android.Timestamps
import AnonyMus.Android.Drops
import AnonyMus.Relay.Quiescence
import AnonyMus.Relay.Confidentiality
import AnonyMus.Relay.InMemory
import AnonyMus.Relay.Tables
import AnonyMus.Relay.FileChunks
import AnonyMus.Relay.Nodes
import AnonyMus.P2p.Consent
import AnonyMus.P2p.Monotonic
import AnonyMus.P2p.Deliverable
import AnonyMus.P2p.Paging
import AnonyMus.P2p.Batcher
import AnonyMus.P2p.Notifications
import AnonyMus.P2p.Isolation
import AnonyMus.P2p.Pinned
import AnonyMus.P2p.Resolution
import AnonyMus.P2p.OnionSignature
import AnonyMus.P2p.SignatureErrors
import AnonyMus.P2p.LegacyReplay
import AnonyMus.P2p.LegacyDelete
import AnonyMus.P2p.LegacyHandshake
import AnonyMus.P2p.HiddenProfile
import AnonyMus.P2p.Groups
import AnonyMus.P2p.Ownership
import AnonyMus.P2p.LoginPolicy
import AnonyMus.P2p.Usable
import AnonyMus.P2p.PairingPolicy
import AnonyMus.P2p.PairingRestore
import AnonyMus.P2p.Uploads
import AnonyMus.P2p.ChunkStore
import AnonyMus.P2p.Reachable
import AnonyMus.P2p.PrekeySync
import AnonyMus.P2p.AddressMigration
import AnonyMus.P2p.GroupInvites
import AnonyMus.P2p.ExpirySweeper
import AnonyMus.P2p.ConnectionPool
import AnonyMus.P2p.DeliveryStates
import AnonyMus.P2p.Reset
import AnonyMus.Relay.InOrder
import AnonyMus.Web.Opening
import AnonyMus.Web.Inbox
import AnonyMus.Web.Serialisable
import AnonyMus.P2p.PanicWipe
import AnonyMus.Rust.SafetyNumber
import AnonyMus.Python.SafetyNumber
import AnonyMus.Android.SafetyNumber
import AnonyMus.Web.Padding
import AnonyMus.Web.Failures
import AnonyMus.P2p.RateLimiter
import AnonyMus.Android.Sending
import AnonyMus.Android.Edits
import AnonyMus.Web.CallResources
import AnonyMus.Python.SessionCache
import AnonyMus.Rust.Rln
import AnonyMus.Rust.Mls
import AnonyMus.Rust.Counters
import AnonyMus.Relay.Presence
import AnonyMus.TypeScript.Conversation
import AnonyMus.TypeScript.Overlap
import AnonyMus.P2p.SecretsAtRest

import EighthLayer.Activity.Bounds
import EighthLayer.Aigrp.Bloom
import EighthLayer.Aigrp.Disclosure
import EighthLayer.Aigrp.Integrity
import EighthLayer.Aigrp.Lookup
import EighthLayer.Aigrp.PeerKeys
import EighthLayer.Aigrp.Replay
import EighthLayer.Aigrp.Rotation
import EighthLayer.Auth.AgentKeys
import EighthLayer.Auth.ApiKeys
import EighthLayer.Auth.KeyLimit
import EighthLayer.Auth.Separation
import EighthLayer.Auth.SignCount
import EighthLayer.Bootstrap.Convergence
import EighthLayer.Consent.Constraints
import EighthLayer.Consent.Effects
import EighthLayer.Consults.Logging
import EighthLayer.Consults.Mirror
import EighthLayer.Consults.Participants
import EighthLayer.Consults.Redelivery
import EighthLayer.Consults.Resolution
import EighthLayer.CrossEnterprise.Signing
import EighthLayer.Crosstalk.Convergence
import EighthLayer.Crosstalk.Inbox
import EighthLayer.Crosstalk.Listing
import EighthLayer.CrosstalkMcp.Adoption
import EighthLayer.CrosstalkMcp.Delivery
import EighthLayer.CrosstalkMcp.HelpBudget
import EighthLayer.CrosstalkMcp.HelpThreads
import EighthLayer.CrosstalkMcp.Inbox
import EighthLayer.CrosstalkMcp.Routings
import EighthLayer.CrosstalkMcp.Threads
import EighthLayer.CrosstalkMcp.Wakes
import EighthLayer.Directory.Bearers
import EighthLayer.Ids
import EighthLayer.Install.HookEdits
import EighthLayer.Install.Markdown
import EighthLayer.Install.Ownership
import EighthLayer.Invites.Accounts
import EighthLayer.Knowledge.Agreement
import EighthLayer.Knowledge.Isolation
import EighthLayer.Knowledge.Review
import EighthLayer.Lib.Calendar
import EighthLayer.Lib.HashChain
import EighthLayer.Lib.Json
import EighthLayer.Lib.Merkle
import EighthLayer.Lib.Savepoint
import EighthLayer.Network.Resolver
import EighthLayer.Personas.AuditTrail
import EighthLayer.Personas.LastAdmin
import EighthLayer.Plugin.Reminders
import EighthLayer.Provision.BackfillKeys
import EighthLayer.Provision.Pace
import EighthLayer.Reflect.RetryAfter
import EighthLayer.Reflect.Sessions
import EighthLayer.Reputation.Audit
import EighthLayer.Reputation.RootAudit
import EighthLayer.Sdk.FlagWire
import EighthLayer.Sdk.Fts
import EighthLayer.Sdk.LocalIndex
import EighthLayer.Sdk.Query
import EighthLayer.Transactional.Idempotency
import EighthLayer.Transactional.Send
import EighthLayer.Transactional.Tenancy

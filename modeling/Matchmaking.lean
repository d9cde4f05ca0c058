import Matchmaking.Database.Query
import Matchmaking.Digest.Hmac
import Matchmaking.Engine.Chance
import Matchmaking.Main
import Matchmaking.Notification.Push
import Matchmaking.Rehearsal.Run
import Matchmaking.Proofs.Store.Story
import Matchmaking.Proofs.Engine.Protocol
import Matchmaking.Proofs.Engine.Stance
import Matchmaking.Proofs.Store.Contract
import Matchmaking.Proofs.Engine.Conduct
import Matchmaking.Proofs.Traffic.Basic
import Matchmaking.Proofs.Engine.Act
import Matchmaking.Proofs.Engine.Growth
import Matchmaking.Proofs.Traffic.Turn
import Matchmaking.Proofs.Traffic.Consent
import Matchmaking.Proofs.Traffic.Ledger
import Matchmaking.Proofs.Traffic.Schedule
import Matchmaking.Proofs.Traffic.Mutual
import Matchmaking.Proofs.Traffic.Orderly
import Matchmaking.Proofs.Traffic.WellOrdered
import Matchmaking.Proofs.Traffic.Agreement
import Matchmaking.Proofs.Traffic.Resumption
import Matchmaking.Proofs.Traffic.History
import Matchmaking.Proofs.Traffic.Verdicts
import Matchmaking.Proofs.Engine.Completion
import Matchmaking.Proofs.Traffic.Narration
import Matchmaking.Proofs.Engine.Effect
import Matchmaking.Proofs.Outcome.Books
import Matchmaking.Proofs.Outcome.Accounting
import Matchmaking.Proofs.Engine.Course
import Matchmaking.Proofs.Outcome.Answering
import Matchmaking.Proofs.Outcome.Contest
import Matchmaking.Proofs.Outcome.Announcement
import Matchmaking.Proofs.Engine.Requests
import Matchmaking.Proofs.Engine.Search
import Matchmaking.Proofs.Traffic.Proposals
import Matchmaking.Proofs.Engine.Venture
import Matchmaking.Proofs.Outcome.Pursuit
import Matchmaking.Proofs.Outcome.Series
import Matchmaking.Proofs.Outcome.Assurance
import Matchmaking.Proofs.Traffic.Coherence
import Matchmaking.Proofs.Outcome.Presentation
import Matchmaking.Proofs.Outcome.Touch
import Matchmaking.Proofs.Outcome.Standing
import Matchmaking.Proofs.Outcome.Queue
import Matchmaking.Proofs.Engine.Filing
import Matchmaking.Proofs.Engine.Keeper
import Matchmaking.Proofs.Engine.Selection
import Matchmaking.Proofs.Engine.Choice
import Matchmaking.Proofs.Outcome.Prospect
import Matchmaking.Proofs.Outcome.Rotation
import Matchmaking.Proofs.Access.Authenticity
import Matchmaking.Proofs.Engine.Transcript
import Matchmaking.Proofs.Engine.Failure
import Matchmaking.Proofs.Engine.Script
import Matchmaking.Proofs.Engine.Reselection
import Matchmaking.Proofs.Outcome.Outage
import Matchmaking.Proofs.Outcome.Refusal
import Matchmaking.Proofs.Access.Identity
import Matchmaking.Proofs.Http.Guard
import Matchmaking.Proofs.Http.Discretion
import Matchmaking.Proofs.Settings.Reading
import Matchmaking.Proofs.Settings.Layering
import Matchmaking.Proofs.Settings.Naming
import Matchmaking.Proofs.Settings.Precedence
import Matchmaking.Proofs.Settings.Texts
import Matchmaking.Proofs.Json.Token
import Matchmaking.Proofs.Json.Grammar
import Matchmaking.Proofs.Json.Recast
import Matchmaking.Proofs.Time.Calendar
import Matchmaking.Proofs.Time.Rfc3339
import Matchmaking.Proofs.Record.RoundTrip
import Matchmaking.Proofs.Http.Swipes
import Matchmaking.Proofs.Text.Utf8
import Matchmaking.Proofs.Access.Issue
import Matchmaking.Proofs.Http.Postback
import Matchmaking.Proofs.Database.Fidelity
import Matchmaking.Proofs.Photo.Confinement
import Matchmaking.Proofs.Decimal.Order
import Matchmaking.Proofs.Engine.Relaxation
import Matchmaking.Proofs.Engine.Picking
import Matchmaking.Proofs.Attempt.Language

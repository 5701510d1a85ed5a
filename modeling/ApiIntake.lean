import ApiIntake.Conversion
import ApiIntake.Import.Watch
import ApiIntake.Import.Local
import ApiIntake.Feed.Update
import ApiIntake.Http.Service
import ApiIntake.EventStream.Event
import ApiIntake.EventStream.Reader
import ApiIntake.Database.Relay
import ApiIntake.Database.Migration
import ApiIntake.Main
import ApiIntake.Proofs.Import.Effect
import ApiIntake.Proofs.Import.Announcements
import ApiIntake.Proofs.Import.Repetition
import ApiIntake.Proofs.Conversion.Rejection
import ApiIntake.Proofs.Conversion.Place
import ApiIntake.Proofs.OpenApi.Paths
import ApiIntake.Proofs.Conversion.Listing
import ApiIntake.Proofs.Conversion.Narrowing
import ApiIntake.Proofs.Database.Agreement
import ApiIntake.Proofs.Tool.Inlining
import ApiIntake.Proofs.Feed.Reading
import ApiIntake.Proofs.Database.Fanout
import ApiIntake.Proofs.Database.CatchUp
import ApiIntake.Proofs.Database.EventLog
import ApiIntake.Proofs.Database.Paging
import ApiIntake.Proofs.Import.Recovery
import ApiIntake.Proofs.EventStream.Feed
import ApiIntake.Proofs.Http.Importing
import ApiIntake.Proofs.Database.Atomicity
import ApiIntake.Proofs.Store.FirstWriter
import ApiIntake.Proofs.Tool.ContentText
import ApiIntake.Proofs.Text.Glob
import ApiIntake.Proofs.Tool.Arguments
import ApiIntake.Proofs.Conversion.Naming
import ApiIntake.Proofs.OpenApi.Resolution
import ApiIntake.Proofs.Tool.Ending
import ApiIntake.Proofs.Conversion.SelfContained
import ApiIntake.Proofs.Conversion.Stray
import ApiIntake.Proofs.Tool.Admission
import ApiIntake.Proofs.Conversion.ServerName
import ApiIntake.Proofs.Conversion.Overriding
import ApiIntake.Proofs.Conversion.BodyReference
import ApiIntake.Proofs.Tool.PathName

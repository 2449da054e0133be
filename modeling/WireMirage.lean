import WireMirage.Library.StepMachine
import WireMirage.Table.Matching
import WireMirage.Table.Conflicts
import WireMirage.Table.Captures
import WireMirage.Table.NearMisses
import WireMirage.Table.NormalForm
import WireMirage.Api.Filtering
import WireMirage.Journal.Fanout
import WireMirage.Journal.Windows
import WireMirage.Callouts.Egress
import WireMirage.Dispatch.Responses
import WireMirage.Dispatch.Streams
import WireMirage.Dispatch.DryRun
import WireMirage.Registry.Numbering
import WireMirage.Registry.Cascading
import WireMirage.Registry.Directory
import WireMirage.Registry.Permanence
import WireMirage.Registry.Listings
import WireMirage.Api.RoundTrip
import WireMirage.Registry.ReadBack
import WireMirage.Registry.StoredPaths
import WireMirage.Api.Importing
import WireMirage.Auth.Deletion
import WireMirage.Auth.TokenStore
import WireMirage.Auth.SignUps
import WireMirage.Auth.Logout
import WireMirage.Auth.LoginThrottle
import WireMirage.Api.LastAdmin
import WireMirage.Api.Pagination
import WireMirage.Api.SignOut
import WireMirage.OAuth.Provenance
import WireMirage.OAuth.OneShot
import WireMirage.OAuth.RedirectUris
import WireMirage.OAuth.Refusals
import WireMirage.Engine.Boundary
import WireMirage.Store.Isolation
import WireMirage.Store.Backends
import WireMirage.Store.Scans
import WireMirage.Api.Since
import WireMirage.Api.Durations
import WireMirage.Api.Globs
import WireMirage.Auth.TokenLifetime
import WireMirage.Api.OffsetPages
import WireMirage.Table.Serving
import WireMirage.Api.Tenancy
import WireMirage.Api.Migration
import WireMirage.Registry.Sweeping

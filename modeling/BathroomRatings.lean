import BathroomRatings.Config.Coverage
import BathroomRatings.Config.Characters
import BathroomRatings.Config.Filler
import BathroomRatings.Config.LineEnds
import BathroomRatings.Config.Pointers
import BathroomRatings.Server.Startup
import BathroomRatings.Server.Process
import BathroomRatings.Server.Isolation
import BathroomRatings.Server.Site
import BathroomRatings.Http.Connection
import BathroomRatings.Http.RoundTrip
import BathroomRatings.Http.Visit
import BathroomRatings.Store.Race
import BathroomRatings.Store.Independence
import BathroomRatings.Store.Crash
import BathroomRatings.Api.Shape
import BathroomRatings.Api.Footprint
import BathroomRatings.Api.Ledger
import BathroomRatings.Api.Concurrent
import BathroomRatings.Api.Durable
import BathroomRatings.Api.TwoStores
import BathroomRatings.Api.Numbering
import BathroomRatings.Api.Overlap
import BathroomRatings.Files.Exceptions
import BathroomRatings.Files.Mirror
import BathroomRatings.BathroomMap.Displayed
import BathroomRatings.BathroomMap.Served
import BathroomRatings.BathroomMap.Located

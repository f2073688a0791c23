import PinBoard.Pin.Flow
import PinBoard.Pin.Overlap
import PinBoard.View.App
import PinBoard.Wire.Alert
import PinBoard.Proofs.Pin.Flow
import PinBoard.Proofs.Service.FailedPin
import PinBoard.Proofs.Service.ErrorCode
import PinBoard.Proofs.Text.Utf8
import PinBoard.Proofs.Result
import PinBoard.Proofs.Text.Base64Url
import PinBoard.Proofs.Json.Grammar
import PinBoard.Proofs.Json.Scan
import PinBoard.Proofs.Json.Build
import PinBoard.Proofs.Json.Write
import PinBoard.Proofs.Json.Record
import PinBoard.Proofs.Json.Number
import PinBoard.Proofs.Wire.Session
import PinBoard.Proofs.Token.Parts
import PinBoard.Proofs.Token.Verify
import PinBoard.Proofs.Token.Issue
import PinBoard.Proofs.Server.Session
import PinBoard.Proofs.Server.Cookie
import PinBoard.Proofs.Server.Pins
import PinBoard.Proofs.Server.Login
import PinBoard.Proofs.Server.Expiry
import PinBoard.Proofs.Json.Codec
import PinBoard.Proofs.Json.Members
import PinBoard.Proofs.Text.Percent
import PinBoard.Proofs.Url.Segment
import PinBoard.Proofs.Wire.Listen
import PinBoard.Proofs.Wire.Pin
import PinBoard.Proofs.Wire.Alert
import PinBoard.Proofs.Wire.RoundTrip
import PinBoard.Proofs.Wire.Members
import PinBoard.Proofs.Service.Outcome
import PinBoard.Proofs.Service.Endpoint
import PinBoard.Proofs.Pin.Alerts
import PinBoard.Proofs.Pin.Overlap
import PinBoard.Proofs.Url.Name
import PinBoard.Proofs.Service.SharedRequest
import PinBoard.Proofs.View.Tags
import PinBoard.Proofs.View.Buttons
import PinBoard.Proofs.View.Profile
import PinBoard.Proofs.Text.Runs
import PinBoard.Proofs.Text.Pieces
import PinBoard.Proofs.Pin.Typing
import PinBoard.Proofs.Text.Escape
import PinBoard.Proofs.Route.Path
import PinBoard.Proofs.Route.OwnProfile
import PinBoard.Proofs.Pin.Tokens
import PinBoard.Proofs.Auth
import PinBoard.Proofs.Json.Names
import PinBoard.Proofs.Json.Spelling
import PinBoard.Proofs.Json.Reading
import PinBoard.Proofs.Json.Minding
import PinBoard.Proofs.Service.Envelope
import PinBoard.Proofs.Service.Listens
import PinBoard.Proofs.View.ListenList
import PinBoard.Proofs.View.Template
import PinBoard.Proofs.View.Safety
import PinBoard.Proofs.Registry
import PinBoard.Proofs.Calendar.Gregorian
import PinBoard.Proofs.Calendar.MinuteText
import PinBoard.Proofs.Pin.Remaining
import PinBoard.Proofs.Text.Decimal
import PinBoard.Proofs.Config

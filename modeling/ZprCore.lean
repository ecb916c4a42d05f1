import ZprCore.Mgmt.Isolation
import ZprCore.Mgmt.Leaks
import ZprCore.Mgmt.Truth
import ZprCore.Link.Admission
import ZprCore.Link.Incarnations
import ZprCore.Dock.Expiry
import ZprCore.Dock.OwnRoutes
import ZprCore.Dock.DeadLinks
import ZprCore.Dock.Answers
import ZprCore.Dock.Ownership
import ZprCore.Adapter.Agreement
import ZprCore.Fastpath.Lossless
import ZprCore.Fastpath.AdapterLinks
import ZprCore.Fastpath.NullChecksum
import ZprCore.Link.Guards
import ZprCore.Link.Attempts
import ZprCore.Link.RevokeAuth
import ZprCore.Link.AddressPool
import ZprCore.Km.Noise
import ZprCore.Buf.Crypto
import ZprCore.Fastpath.Buffers
import ZprCore.VisaService.Worker
import ZprCore.Zdpr.Inbound
import ZprCore.Zdpr.Custody
import ZprCore.Mgmt.Hazards
import ZprCore.Zdpr.Wakeups
import ZprCore.Zdpr.Retries
